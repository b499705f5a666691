import MeteredVm.HostCall.Dispatch
import MeteredVm.Text.Utf8

/-!
The host calls that the node offers to its programs: one tells the gas left, the other passes a message on. A message
is given by an address and a length, and its price grows with its length.
-/

set_option autoImplicit false
set_option relaxedAutoImplicit false

namespace MeteredVm.Node

open HostCall

def gasIndex : UInt32 := 0

def logIndex : UInt32 := 100

def baseCost : UInt32 := 10

def maxMessageLength : UInt64 := 65536

def messageAddressRegister : Reg := .numbered 8

def messageLengthRegister : Reg := .numbered 9

def gasProgram : HostProgram String (Option HostVerdict) := do
  let left ← .remainingGas .done
  HostProgram.writeRegister resultRegister left
  return none

/-- Reports the message that the registers point at, if the program may read it. -/
def logProgram : HostProgram String (Option HostVerdict) := do
  let address ← HostProgram.readRegister messageAddressRegister
  let length ← HostProgram.readRegister messageLengthRegister
  if maxMessageLength < length then refused
  else if !(← .isReadable address length .done) then refused
  else
    match ← .load address length .done with
    | .error _ => refused
    | .ok bytes =>
      HostProgram.tell (Text.Utf8.decodeLossy bytes)
      HostProgram.writeRegister resultRegister ResultCode.ok.word
      return none
where
  refused : HostProgram String (Option HostVerdict) := do
    HostProgram.writeRegister resultRegister ResultCode.oob.word
    return none

def gasCall : Handler String := ⟨fun _ => .fixed baseCost, gasProgram⟩

def logCall : Handler String :=
  ⟨fun registers => .linear baseCost.toUInt64 (registers.get messageLengthRegister), logProgram⟩

def registry : Registry (Handler String) := ⟨[(logIndex, logCall), (gasIndex, gasCall)], by decide⟩

/-- The table is what comes of registering the calls one after another. -/
theorem registerAll_calls : Registry.empty.registerAll [(gasIndex, gasCall), (logIndex, logCall)] = .ok registry := rfl

end MeteredVm.Node
