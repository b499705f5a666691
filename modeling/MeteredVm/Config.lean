import MeteredVm.Error
import MeteredVm.HostCall.Dispatch

/-!
The settings of the execution core and when they make sense.
-/

set_option autoImplicit false
set_option relaxedAutoImplicit false

namespace MeteredVm

structure VmConfig where
  poolCapacity : Nat
  defaultGas : Nat
  instructionGas : UInt32
  unknownCallGas : UInt32
  maxCodeSize : Nat
deriving DecidableEq, Repr

namespace VmConfig

def standard : VmConfig where
  poolCapacity := 8
  defaultGas := 10000000
  instructionGas := Machine.defaultInstructionGas
  unknownCallGas := HostCall.defaultUnknownCallGas
  maxCodeSize := 4194304

instance : Inhabited VmConfig := ⟨standard⟩

/-- Accepts settings that make sense: there is a machine, there can be a program, and the gas fits a counter. -/
def validate (config : VmConfig) : Except VmError Unit :=
  if config.poolCapacity = 0 then .error (.invalidConfig "pool_capacity must be at least 1")
  else if config.maxCodeSize = 0 then .error (.invalidConfig "max_code_size cannot be 0")
  else if GasCounter.maxGas < config.defaultGas then
    .error (.invalidConfig
      ("default_gas " ++ toString config.defaultGas ++ " exceeds " ++ toString GasCounter.maxGas))
  else .ok ()

def checkCodeSize (config : VmConfig) (size : Nat) : Except VmError Unit :=
  if config.maxCodeSize < size then .error (.codeSizeExceeded size config.maxCodeSize) else .ok ()

end VmConfig

end MeteredVm
