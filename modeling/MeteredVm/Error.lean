import MeteredVm.Gas
import MeteredVm.Instruction.Decoding
import MeteredVm.Memory.Layout

/-!
The errors of the machine and its parts under one type, as they are shown to whoever embeds the machine.
-/

set_option autoImplicit false
set_option relaxedAutoImplicit false

namespace MeteredVm

inductive VmError where
  | memory (error : MemoryError)
  | layout (error : LayoutError)
  | gas (error : GasError)
  | decode (error : DecodeError)
  | codeSizeExceeded (size limit : Nat)
  | invalidConfig (reason : String)
deriving DecidableEq, Repr

def VmError.message : VmError → String
  | .memory error => "Memory error: " ++ error.message
  | .layout error => "Memory layout error: " ++ error.message
  | .gas error => "Gas error: " ++ error.message
  | .decode error => "Decode error: " ++ error.message
  | .codeSizeExceeded size limit => "Code size exceeded: " ++ toString size ++ " > " ++ toString limit
  | .invalidConfig reason => "Invalid configuration: " ++ reason

end MeteredVm
