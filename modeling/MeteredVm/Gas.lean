/-!
Gas metering. The counter is signed: a deduction is always made, and a counter below zero means that the run has
been overdrawn. Amounts and the counter live in the range of a signed 64-bit word, at whose ends they saturate.
-/

set_option autoImplicit false
set_option relaxedAutoImplicit false

namespace MeteredVm

inductive GasCost where
  | fixed (amount : UInt32)
  /-- The price was computed from the arguments of the call. -/
  | variable (amount : UInt64)
deriving DecidableEq, Repr

def GasCost.amount : GasCost → UInt64
  | .fixed amount => amount.toUInt64
  | .variable amount => amount

/-- A price that grows with an argument, stopping at the largest word. -/
def GasCost.linear (base argument : UInt64) : GasCost :=
  .variable (UInt64.ofNat (min (base.toNat + argument.toNat) 18446744073709551615))

inductive GasError where
  | outOfGas (remaining : Int)
deriving DecidableEq, Repr

def GasError.message : GasError → String
  | .outOfGas remaining => "Out of gas: remaining " ++ toString remaining

structure GasCounter where
  initial : Nat
  /-- Gas left; below zero once overdrawn. -/
  balance : Int
deriving DecidableEq, Repr

namespace GasCounter

def maxGas : Nat := 9223372036854775807

def minBalance : Int := -9223372036854775808

/-- A counter that holds an allotment, capped at the largest one. -/
def new (allotment : UInt64) : GasCounter :=
  let initial := min allotment.toNat maxGas
  ⟨initial, initial⟩

instance : Inhabited GasCounter := ⟨new 0⟩

def remaining (counter : GasCounter) : Nat := counter.balance.toNat

/-- Gas spent, never more than the allotment. -/
def used (counter : GasCounter) : Nat :=
  min (counter.initial - counter.balance).toNat counter.initial

/-- The counter after an amount was deducted, saturating at the least balance. -/
def deduct (counter : GasCounter) (amount : UInt64) : GasCounter :=
  { counter with balance := max minBalance (counter.balance - (min amount.toNat maxGas : Nat)) }

def isOverdrawn (counter : GasCounter) : Bool := counter.balance < 0

/-- The verdict on a charge that has just been deducted. -/
def verdict (counter : GasCounter) : Except GasError Unit :=
  if counter.isOverdrawn then .error (.outOfGas counter.balance) else .ok ()

/-- Deducts an amount; the deduction stays even if it overdraws the counter. -/
def charge (counter : GasCounter) (amount : UInt64) : GasCounter × Except GasError Unit :=
  let charged := counter.deduct amount
  (charged, charged.verdict)

def chargeCost (counter : GasCounter) (cost : GasCost) : GasCounter × Except GasError Unit :=
  counter.charge cost.amount

end GasCounter

end MeteredVm
