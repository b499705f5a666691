import MeteredVm.Instruction.Encoding
import MeteredVm.HostCall.Script
import MeteredVm.Instruction.Names
import MeteredVm.Node.CommandLine
import MeteredVm.Pool.Desk
import MeteredVm.Main
import MeteredVm.Proofs.Memory.Copying
import MeteredVm.Proofs.Memory.FlatMap
import MeteredVm.Proofs.Pool.Operations
import MeteredVm.Proofs.Pool.Bookkeeping
import MeteredVm.Proofs.Pool.Accounting
import MeteredVm.Proofs.Pool.Conservation
import MeteredVm.Proofs.Pool.Fairness
import MeteredVm.Proofs.Pool.AtDesk
import MeteredVm.Proofs.Execution.Moments
import MeteredVm.Proofs.Execution.Spending
import MeteredVm.Proofs.Instruction.Operands
import MeteredVm.Proofs.Instruction.RoundTrip
import MeteredVm.Proofs.Execution.Isolation
import MeteredVm.Proofs.Execution.Termination
import MeteredVm.Proofs.Instruction.Extent
import MeteredVm.Proofs.Execution.Affordability
import MeteredVm.Proofs.Execution.Endings
import MeteredVm.Proofs.Execution.Allotment
import MeteredVm.Proofs.Execution.Serving
import MeteredVm.Proofs.Batch.Sharing
import MeteredVm.Proofs.Batch.Progress
import MeteredVm.Proofs.Batch.Runs
import MeteredVm.Proofs.Batch.Metering
import MeteredVm.Proofs.Execution.Counting
import MeteredVm.Proofs.Memory.Representation
import MeteredVm.Proofs.Safety.Checks
import MeteredVm.Proofs.Safety.Memory
import MeteredVm.Proofs.Safety.Decoding
import MeteredVm.Proofs.Safety.Steps
import MeteredVm.Proofs.Safety.Executions
import MeteredVm.Proofs.Execution.Dependence
import MeteredVm.Proofs.Machine.Classification
import MeteredVm.Proofs.Instruction.Grammar
import MeteredVm.Proofs.Machine.StoreLoad
import MeteredVm.Proofs.Instruction.Reassembly
import MeteredVm.Proofs.Memory.Staging
import MeteredVm.Proofs.Memory.Agreement
import MeteredVm.Proofs.Memory.Growth
import MeteredVm.Proofs.Memory.HostView
import MeteredVm.Proofs.Machine.Arithmetic
import MeteredVm.Proofs.Execution.Results
import MeteredVm.Proofs.Execution.ProgramCounter
import MeteredVm.Proofs.Node.Calls
import MeteredVm.Proofs.Node.InitialImage
