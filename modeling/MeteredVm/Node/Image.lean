import MeteredVm.Memory.Layout
import MeteredVm.Registers

/-!
What every program of the node starts with: a stack, a heap that may grow, its input as read-only pages below the
address that halts the machine, and registers that say where these are.
-/

set_option autoImplicit false
set_option relaxedAutoImplicit false

namespace MeteredVm.Node

def stackStart : Nat := 0x10000

/-- The address above the stack, where the stack pointer starts. -/
def stackEnd : Nat := 0x20000

def heapStart : Nat := 0x20000

def heapEnd : Nat := 0x120000

def inputAddress : Nat := 0xFEFF0000

/-- The length of the longest input, which ends at the address that halts the machine. -/
def maxInputSize : Nat := AddressSpace.haltAddress.toNat - inputAddress

/-- The steps that stage the initial memory. -/
def imageSteps (input : Array UInt8) : List LayoutStep :=
  let stack := LayoutStep.stage .write stackStart stackEnd #[]
  if input.isEmpty then [stack]
  else [stack, .stage .read inputAddress (inputAddress + AddressSpace.ceilToPage input.size) input]

def initialMemory (input : Array UInt8) : Except LayoutError Memory :=
  Layout.build (imageSteps input) heapStart heapEnd

def haltRegister : Reg := .numbered 0

def stackPointer : Reg := .numbered 1

def inputAddressRegister : Reg := .numbered 7

def inputLengthRegister : Reg := .numbered 8

def initialRegisters (inputLength : Nat) : Registers :=
  let base := (Registers.zero.set haltRegister AddressSpace.haltAddress.toUInt64).set stackPointer
    (UInt64.ofNat stackEnd)
  if inputLength = 0 then base
  else
    (base.set inputAddressRegister (UInt64.ofNat inputAddress)).set inputLengthRegister (UInt64.ofNat inputLength)

end MeteredVm.Node
