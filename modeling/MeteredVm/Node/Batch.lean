import MeteredVm.HostCall.Dispatch
import MeteredVm.Pool.Basic

/-!
A batch of equal jobs that share a pool of machines. Each job waits for a machine, runs on it, and returns it; the
jobs take turns in any order. The result of a batch lists the results of its jobs in the order of the jobs.
-/

set_option autoImplicit false
set_option relaxedAutoImplicit false

namespace MeteredVm.Node

structure Job where
  program : Array UInt8
  gas : UInt64
  registers : Registers
  memory : Memory

def Job.load (job : Job) (machine : Machine) : Machine :=
  machine.reset job.program 0 job.gas (some job.registers) (some job.memory)

inductive Phase (ε : Type) where
  | waiting
  | loaded (machine : Machine)
  /-- It has run, and still holds its machine. -/
  | ran (execution : Execution ε)
  /-- It has returned its machine. -/
  | done (result : ExecutionResult) (reports : Array ε)

structure Batch (ε : Type) where
  pool : Pool Machine
  phases : Array (Phase ε)

namespace Batch

variable {ε : Type}

def start (pool : Pool Machine) (runs : Nat) : Batch ε := ⟨pool, Array.replicate runs .waiting⟩

def put (batch : Batch ε) (run : Nat) (phase : Phase ε) : Batch ε :=
  { batch with phases := batch.phases.setIfInBounds run phase }

/-- Gives a job its turn: it asks for a machine, runs on the one it has, or returns it. -/
def turn (dispatcher : Dispatcher ε) (job : Job) (batch : Batch ε) (run : Nat) : Batch ε :=
  match batch.phases[run]? with
  | none => batch
  | some .waiting =>
    match batch.pool.poll run with
    | (none, pool) => { batch with pool }
    | (some machine, pool) => { batch with pool }.put run (.loaded (job.load machine))
  | some (.loaded machine) =>
    match dispatcher.run? machine with
    | none => batch
    | some execution => batch.put run (.ran execution)
  | some (.ran execution) =>
    let pool := batch.pool.release execution.machine
    { batch with pool }.put run (.done execution.machine.result execution.reports)
  | some (.done ..) => batch

def turns (dispatcher : Dispatcher ε) (job : Job) (batch : Batch ε) (order : List Nat) : Batch ε :=
  order.foldl (turn dispatcher job) batch

/-- The order in which every job has all its turns before the next job has one. -/
def inOrder (runs : Nat) : List Nat := (List.range runs).flatMap fun run => [run, run, run]

def finished? : Phase ε → Option (ExecutionResult × Array ε)
  | .done result reports => some (result, reports)
  | .waiting | .loaded _ | .ran _ => none

/-- The results and the reports of all jobs, if all are done. -/
def results? (batch : Batch ε) : Option (List (ExecutionResult × Array ε)) := batch.phases.toList.mapM finished?

end Batch

end MeteredVm.Node
