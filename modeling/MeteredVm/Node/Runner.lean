import MeteredVm.Node.Batch
import MeteredVm.Node.HostCalls
import MeteredVm.Node.Image
import MeteredVm.Pool.Desk

/-!
Running programs for the node. A runner checks what it is asked for, prepares the image that all runs start from, and
runs a batch on its pool.
-/

set_option autoImplicit false
set_option relaxedAutoImplicit false

namespace MeteredVm.Node

inductive RunError where
  | vm (error : VmError)
  | pool (error : PoolError)
  | inputTooLong (size : Nat)
  | gasTooHigh (gas : Nat)
  | layout (error : LayoutError)
  /-- The results would not fit into any memory. -/
  | tooManyRuns
  | endless
deriving DecidableEq, Repr

def RunError.message : RunError → String
  | .vm error => error.message
  | .pool error => error.message
  | .inputTooLong size => "Input of " ++ toString size ++ " bytes exceeds " ++ toString maxInputSize ++ " bytes"
  | .gasTooHigh gas => "Gas " ++ toString gas ++ " exceeds " ++ toString GasCounter.maxGas
  | .layout error => error.message
  | .tooManyRuns => "Too many runs"
  | .endless => "Execution does not end"

structure Runner where
  config : VmConfig
  pool : Pool Machine

/-- What comes out of a batch: the result of each run, and the messages of all runs in the order of the runs. -/
structure BatchResult where
  results : List ExecutionResult
  messages : List String

namespace Runner

def ofConfig (config : VmConfig) : Except RunError Runner :=
  match Pool.ofConfig config with
  | .error (.config error) => .error (.vm error)
  | .error (.pool error) => .error (.pool error)
  | .ok pool => .ok ⟨config, pool⟩

def dispatcher (runner : Runner) : Dispatcher String := ⟨registry, runner.config.unknownCallGas⟩

/-- The job of running a program on an input, if it is accepted: the program, the input and the gas are checked in
this order. -/
def job (config : VmConfig) (program input : Array UInt8) (gas : Option Nat) : Except RunError Job :=
  match config.checkCodeSize program.size with
  | .error error => .error (.vm error)
  | .ok () =>
    if maxInputSize < input.size then .error (.inputTooLong input.size)
    else
      let gas := gas.getD config.defaultGas
      if GasCounter.maxGas < gas then .error (.gasTooHigh gas)
      else
        match initialMemory input with
        | .error error => .error (.layout error)
        | .ok memory => .ok ⟨program, UInt64.ofNat gas, initialRegisters input.size, memory⟩

/-- The largest number of runs: eight bytes are set aside for each, and no more than half of the 64-bit range can be set
aside. -/
def maxRuns : Nat := 9223372036854775807 / 8

def runMany (runner : Runner) (program input : Array UInt8) (gas : Option Nat) (runs : Nat) :
    Except RunError BatchResult × Runner :=
  match job runner.config program input gas with
  | .error error => (.error error, runner)
  | .ok job =>
    if maxRuns < runs then (.error .tooManyRuns, runner)
    else
      let batch := (Batch.start runner.pool runs).turns runner.dispatcher job (Batch.inOrder runs)
      let runner := { runner with pool := batch.pool }
      match batch.results? with
      | none => (.error .endless, runner)
      | some results => (.ok ⟨results.map Prod.fst, results.flatMap fun run => run.2.toList⟩, runner)

end Runner

end MeteredVm.Node
