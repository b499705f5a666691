import MeteredVm.Machine.Basic

/-!
Running a machine: single steps are repeated until the machine no longer runs. The number of steps that a metered run
can take follows from its gas.
-/

set_option autoImplicit false
set_option relaxedAutoImplicit false

namespace MeteredVm

/-- Repeats a transition until a state is finished, at most `fuel` times. -/
@[specialize] def iterateUntil? {σ : Type} (finished : σ → Bool) (next : σ → σ) : Nat → σ → Option σ
  | 0, state => if finished state then some state else none
  | fuel + 1, state => if finished state then some state else iterateUntil? finished next fuel (next state)

namespace Machine

def isRunning (machine : Machine) : Bool := machine.status == .continuing

def unmeteredAllowance : Nat := 18446744073709551616

/-- The largest number of steps that the gas of a machine can pay for, and one more. -/
def stepAllowance (machine : Machine) : Nat :=
  if machine.instructionGas = 0 then unmeteredAllowance
  else machine.gas.remaining / machine.instructionGas.toNat + 1

/-- Steps until the machine no longer runs; `none` only if a machine that pays nothing for an instruction never
stops. -/
def run? (machine : Machine) : Option Machine :=
  iterateUntil? (fun m => !m.isRunning) step machine.stepAllowance machine

/-- The states met by up to `count` steps, ending with the first that no longer runs. -/
def trace (machine : Machine) : Nat → List Machine
  | 0 => []
  | count + 1 =>
    let next := machine.step
    if next.isRunning then next :: next.trace count else [next]

end Machine

end MeteredVm
