/-!
The register file: thirteen 64-bit words with unsigned, signed and 32-bit views of the same bits.
-/

set_option autoImplicit false
set_option relaxedAutoImplicit false

namespace MeteredVm

abbrev Reg := Fin 13

def Reg.count : Nat := 13

/-- The register with a number, counted modulo the number of registers. -/
def Reg.numbered (n : Nat) : Reg := ⟨n % 13, Nat.mod_lt n (by decide)⟩

def Reg.ofNat? (n : Nat) : Option Reg :=
  if h : n < 13 then some ⟨n, h⟩ else none

structure Registers where
  words : Vector UInt64 13
deriving DecidableEq

namespace Registers

def zero : Registers := ⟨Vector.replicate 13 0⟩

def ofFn (f : Reg → UInt64) : Registers := ⟨Vector.ofFn f⟩

def get (registers : Registers) (r : Reg) : UInt64 := registers.words[r]

def set (registers : Registers) (r : Reg) (value : UInt64) : Registers :=
  ⟨registers.words.set r value r.isLt⟩

/-- The two's-complement reading of a register. -/
def getSigned (registers : Registers) (r : Reg) : Int64 := (registers.get r).toInt64

def setSigned (registers : Registers) (r : Reg) (value : Int64) : Registers :=
  registers.set r value.toUInt64

def getLow (registers : Registers) (r : Reg) : UInt32 := (registers.get r).toUInt32

/-- The low half of a register, read as two's complement. -/
def getLowSigned (registers : Registers) (r : Reg) : Int32 := (registers.getLow r).toInt32

/-- The 64-bit word whose signed reading is that of a 32-bit word. -/
def signExtend (value : UInt32) : UInt64 := value.toInt32.toInt64.toUInt64

def setSignExtended (registers : Registers) (r : Reg) (value : UInt32) : Registers :=
  registers.set r (signExtend value)

def toList (registers : Registers) : List UInt64 := registers.words.toList

instance : Inhabited Registers := ⟨zero⟩

@[simp] theorem get_ofFn (f : Reg → UInt64) (r : Reg) : (ofFn f).get r = f r := by
  simp [ofFn, get]

private theorem get_set (registers : Registers) (r s : Reg) (value : UInt64) :
    (registers.set r value).get s = if r = s then value else registers.get s := by
  simp only [get, set, Fin.getElem_fin, Vector.getElem_set, Fin.ext_iff]

@[simp] theorem get_set_self (registers : Registers) (r : Reg) (value : UInt64) :
    (registers.set r value).get r = value := by
  simp [get_set]

theorem get_set_of_ne (registers : Registers) {r s : Reg} (h : r ≠ s) (value : UInt64) :
    (registers.set r value).get s = registers.get s := by
  simp [get_set, h]

end Registers

end MeteredVm
