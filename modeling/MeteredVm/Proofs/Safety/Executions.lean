import MeteredVm.Proofs.Execution.Affordability
import MeteredVm.Proofs.Execution.Endings
import MeteredVm.Proofs.Safety.Steps

/-!
Executions with every operation on their way checked: steps of the machine, requests of host calls, and what is read off
a machine that has stopped. The main statement is that no program can bring down the node that runs it. Whatever its
bytes are and wherever it starts, with whatever gas, registers and memory, nothing crashes as long as it runs, and it
stops only by halting, by a panic, without gas, or for a host call.
-/

set_option autoImplicit false
set_option relaxedAutoImplicit false

namespace MeteredVm

open Checked

namespace Checked

section

variable {σ : Type} {finished : σ → Bool} {next : σ → Except Crash σ} {plain : σ → σ}

def iterate (next : σ → Except Crash σ) : Nat → σ → Except Crash σ
  | 0, state => .ok state
  | count + 1, state => do
    let state ← next state
    iterate next count state

def iterateUntil? (finished : σ → Bool) (next : σ → Except Crash σ) : Nat → σ → Except Crash (Option σ)
  | 0, state => .ok (if finished state then some state else none)
  | fuel + 1, state =>
    if finished state then .ok (some state)
    else do
      let state ← next state
      iterateUntil? finished next fuel state

private theorem iterate_eq (kept : σ → Prop)
    (each : ∀ state, kept state → next state = .ok (plain state) ∧ kept (plain state))
    {state : σ} (holds : kept state) (count : Nat) : iterate next count state = .ok (plain^[count] state) := by
  induction count generalizing state with
  | zero => rfl
  | succ count ih =>
    obtain ⟨done, after⟩ := each state holds
    rw [iterate, done, ok_bind, Function.iterate_succ_apply]
    exact ih after

private theorem iterateUntil?_eq (kept : σ → Prop)
    (each : ∀ state, kept state → next state = .ok (plain state) ∧ kept (plain state)) {state : σ} (holds : kept state)
    (fuel : Nat) :
    iterateUntil? finished next fuel state = .ok (MeteredVm.iterateUntil? finished plain fuel state) := by
  induction fuel generalizing state with
  | zero => rfl
  | succ fuel ih =>
    obtain ⟨done, after⟩ := each state holds
    rw [iterateUntil?, MeteredVm.iterateUntil?]
    split
    · rfl
    · rw [done, ok_bind]
      exact ih after

end

end Checked

namespace GasCounter

private theorem Reachable.bounds {counter : GasCounter} (h : counter.Reachable) :
    counter.initial ≤ maxGas ∧ minBalance ≤ counter.balance := by
  induction h with
  | new allotment =>
    refine ⟨Nat.min_le_right _ _, ?_⟩
    simp only [GasCounter.new, minBalance]
    omega
  | charge h amount ih => exact ⟨ih.1, Int.le_max_left _ _⟩

/-- Gas spent, found by a difference with a sign that is cut to what there was. -/
def Checked.used (counter : GasCounter) : Except Crash Nat := do
  let spent ← subtractSigned counter.initial counter.balance
  return (max 0 (min spent counter.initial)).toNat

private theorem Checked.used_eq {counter : GasCounter} (h : counter.Reachable) : used counter = .ok counter.used := by
  obtain ⟨initial, low⟩ := h.bounds
  have high := h.balance_le
  unfold maxGas at initial high
  unfold minBalance at low
  -- both numbers lie in the range of 64 bits, and their difference in that of 128
  have fits : -170141183460469231731687303715884105728 ≤ (counter.initial : Int) - counter.balance ∧
      (counter.initial : Int) - counter.balance < 170141183460469231731687303715884105728 := by omega
  rw [used, subtractSigned, if_pos fits, ok_bind, GasCounter.used]
  refine congrArg Except.ok ?_
  omega

end GasCounter

/-- What holds of the state that a program and its host calls share, as long as it runs. -/
structure GuestView.Sound (view : GuestView) : Prop where
  memory : view.memory.WellFormed
  gas : view.gas.Reachable

namespace HostProgram

variable {ε α : Type}

/-- The program never asks for more bytes at once than any buffer can hold. -/
def Modest : HostProgram ε α → Prop
  | .done _ => True
  | .getRegister _ next => ∀ value, (next value).Modest
  | .setRegister _ _ next => next.Modest
  | .readGas next => ∀ gas, (next gas).Modest
  | .chargeGas _ next => ∀ verdict, (next verdict).Modest
  | .store _ _ next => ∀ outcome, (next outcome).Modest
  | .load _ length next => length.toNat < 9223372036854775808 ∧ ∀ outcome, (next outcome).Modest
  | .isReadable _ _ next => ∀ answer, (next answer).Modest
  | .isWriteable _ _ next => ∀ answer, (next answer).Modest
  | .report _ next => next.Modest
  | .suspend next => next.Modest

def Checked.run : HostProgram ε α → GuestView → Except Crash (α × GuestView × List ε)
  | .done value, view => .ok (value, view, [])
  | .getRegister r next, view => do
    let value ← Checked.readRegister view.registers r.val
    Checked.run (next value) view
  | .setRegister r value next, view => do
    let registers ← Checked.writeRegister view.registers r.val value
    Checked.run next { view with registers }
  | .readGas next, view => Checked.run (next view.gas) view
  | .chargeGas amount next, view =>
    let (gas, verdict) := view.gas.charge amount
    Checked.run (next verdict) { view with gas }
  | .store address payload next, view => do
    match ← Memory.Host.Checked.store view.memory address payload.bytes.toArray with
    | .error error => Checked.run (next (.error error)) view
    | .ok memory => Checked.run (next (.ok ())) { view with memory }
  | .load address length next, view => do
    let outcome ← Memory.Host.Checked.load view.memory address length
    Checked.run (next outcome) view
  | .isReadable address length next, view => do
    let answer ← Memory.Host.Checked.isUsable view.memory .read address length
    Checked.run (next answer) view
  | .isWriteable address length next, view => do
    let answer ← Memory.Host.Checked.isUsable view.memory .write address length
    Checked.run (next answer) view
  | .report entry next, view => do
    let (value, view, reports) ← Checked.run next view
    return (value, view, entry :: reports)
  | .suspend next, view => Checked.run next view

private theorem sound_run (program : HostProgram ε α) {view : GuestView} (sound : view.Sound) :
    (program.run view).2.1.Sound := by
  induction program generalizing view with
  | done value => exact sound
  | getRegister r next ih => exact ih _ sound
  | setRegister r value next ih => exact ih ⟨sound.memory, sound.gas⟩
  | readGas next ih => exact ih _ sound
  | chargeGas amount next ih => exact ih _ ⟨sound.memory, sound.gas.charge amount⟩
  | store address payload next ih =>
    rw [run]
    cases stored : Memory.Host.store view.memory address payload.bytes with
    | error error => exact ih _ sound
    | ok memory => exact ih _ ⟨sound.memory.store (Memory.store_of_host_store stored), sound.gas⟩
  | load address length next ih => exact ih _ sound
  | isReadable address length next ih => exact ih _ sound
  | isWriteable address length next ih => exact ih _ sound
  | report entry next ih => exact ih sound
  | suspend next ih => exact ih sound

private theorem Checked.run_eq {program : HostProgram ε α} (modest : program.Modest) (view : GuestView) :
    Checked.run program view = .ok (program.run view) := by
  induction program generalizing view with
  | done value => rfl
  | getRegister r next ih =>
    rw [Checked.run, readRegister_eq, ok_bind]
    exact ih _ (modest _) view
  | setRegister r value next ih =>
    rw [Checked.run, writeRegister_eq, ok_bind]
    exact ih modest _
  | readGas next ih => exact ih _ (modest _) view
  | chargeGas amount next ih => exact ih _ (modest _) _
  | store address payload next ih =>
    have counted : payload.bytes.toArray.size < UInt64.size := payload.counted
    rw [Checked.run, Memory.Host.Checked.store_eq counted, ok_bind, HostProgram.run]
    cases Memory.Host.store view.memory address payload.bytes with
    | error error => exact ih _ (modest _) view
    | ok memory => exact ih _ (modest _) _
  | load address length next ih =>
    rw [Checked.run, Memory.Host.Checked.load_eq modest.1, ok_bind]
    exact ih _ (modest.2 _) view
  | isReadable address length next ih =>
    rw [Checked.run, Memory.Host.Checked.isUsable_eq, ok_bind]
    exact ih _ (modest _) view
  | isWriteable address length next ih =>
    rw [Checked.run, Memory.Host.Checked.isUsable_eq, ok_bind]
    exact ih _ (modest _) view
  | report entry next ih =>
    rw [Checked.run, ih modest, ok_bind]
    rfl
  | suspend next ih => exact ih modest view

end HostProgram

namespace Machine

variable {machine : Machine}

private theorem sound_reset (machine : Machine) (program : Array UInt8) (pc : UInt32) (gas : UInt64)
    (registers : Option Registers) {memory : Option Memory} (fresh : ∀ given ∈ memory, given.Fresh) :
    (machine.reset program pc gas registers memory).view.Sound where
  memory :=
    match memory, fresh with
    | none, _ => Memory.Fresh.empty.wellFormed
    | some given, fresh => (fresh given rfl).wellFormed
  gas := .new gas

private theorem sound_step (sound : machine.view.Sound) : machine.step.view.Sound := by
  refine ⟨machine.step_steps.wellFormed sound.memory, ?_⟩
  by_cases running : machine.status = .continuing
  · exact sound.gas.charged (machine.step_steps.charged running)
  · have stays : machine.step = machine := if_pos running
    rw [stays]
    exact sound.gas

private theorem sound_chargeGas (sound : machine.view.Sound) (cost : GasCost) :
    (machine.chargeGas cost).1.view.Sound := by
  have gas : (machine.gas.charge cost.amount).1.Reachable := sound.gas.charge cost.amount
  unfold chargeGas
  dsimp only
  split
  · exact ⟨sound.memory, gas⟩
  · exact ⟨sound.memory, gas⟩

def Checked.run? (machine : Machine) : Except Crash (Option Machine) :=
  Checked.iterateUntil? (fun m => !m.isRunning) Checked.step machine.stepAllowance machine

def Checked.output (machine : Machine) : Except Crash (Array UInt8) := do
  let address ← readRegister machine.registers HostCall.outputAddressRegister.val
  let length ← readRegister machine.registers HostCall.outputLengthRegister.val
  if length = 0 then return #[]
  else if !(← Memory.Checked.isUsable machine.memory .read address length) then return #[]
  else
    let buffer ← allocate length.toNat
    match ← Memory.Checked.loadInto machine.memory buffer address with
    | .ok bytes => return bytes
    | .error _ => return #[]

def Checked.result (machine : Machine) : Except Crash ExecutionResult := do
  let gasUsed ← GasCounter.Checked.used machine.gas
  match machine.status with
  | .halt =>
    let output ← Checked.output machine
    return ⟨.halt output, gasUsed⟩
  | .outOfGas => return ⟨.outOfGas, gasUsed⟩
  | .panic | .continuing | .hostCall _ => return ⟨.panic, gasUsed⟩

namespace Checked

private theorem step_eq_of_sound (sound : machine.view.Sound) :
    step machine = .ok machine.step ∧ machine.step.view.Sound :=
  ⟨step_eq sound.memory, sound_step sound⟩

private theorem run?_eq (sound : machine.view.Sound) : run? machine = .ok machine.run? :=
  Checked.iterateUntil?_eq (fun machine : Machine => machine.view.Sound) (fun _ => step_eq_of_sound) sound
    machine.stepAllowance

private theorem output_eq (machine : Machine) : output machine = .ok machine.output := by
  rw [output, readRegister_eq, ok_bind, readRegister_eq, ok_bind, Machine.output]
  generalize machine.registers.get HostCall.outputAddressRegister = address
  generalize machine.registers.get HostCall.outputLengthRegister = length
  by_cases nothing : length = 0
  · rw [if_pos nothing, if_pos (Or.inl nothing)]
    rfl
  rw [if_neg nothing, Memory.Checked.isUsable, Memory.Checked.fault?_eq, ok_bind]
  cases faultless : machine.memory.fault? .read address length with
  | some error =>
    have unreadable : ¬machine.memory.isReadable address length = true := by simp [Memory.isReadable, faultless]
    rw [if_pos (Or.inr unreadable)]
    rfl
  | none =>
    have readable : machine.memory.isReadable address length = true := by simp [Memory.isReadable, faultless]
    -- what can be read lies in the address space, so there is a buffer for it
    have fits := (machine.memory.fault?_eq_none_iff .read address length).mp faultless
    have small : length.toNat < 9223372036854775808 := by
      unfold AddressSpace.size at fits
      omega
    have counted : (Array.replicate length.toNat (0 : UInt8)).size < UInt64.size := by
      rw [Array.size_replicate]
      exact length.toNat_lt
    have usable : ¬(length = 0 ∨ ¬machine.memory.isReadable address length = true) := by simp [nothing, readable]
    rw [if_neg usable, allocate_eq small, Memory.load_eq_loadInto]
    simp only [Option.isNone_none, Bool.not_true, Bool.false_eq_true, if_false, pure_bind, ok_bind,
      Memory.Checked.loadInto_eq counted]
    cases machine.memory.loadInto (Array.replicate length.toNat 0) address <;> rfl

private theorem result_eq (sound : machine.view.Sound) : result machine = .ok machine.result := by
  have used : GasCounter.Checked.used machine.gas = .ok machine.gasUsed := GasCounter.Checked.used_eq sound.gas
  rw [result, used, ok_bind, Machine.result]
  cases machine.status with
  | halt =>
    rw [output_eq, ok_bind]
    rfl
  | continuing => rfl
  | panic => rfl
  | outOfGas => rfl
  | hostCall index => rfl

end Checked

end Machine

namespace Dispatcher

variable {ε : Type} {dispatcher : Dispatcher ε} {execution : Execution ε}

def Modest (dispatcher : Dispatcher ε) : Prop :=
  ∀ index handler, dispatcher.registry.get? index = some handler → handler.execute.Modest

def Checked.refuse (dispatcher : Dispatcher ε) (execution : Execution ε) : Except Crash (Execution ε) :=
  match execution.machine.chargeGas (.fixed dispatcher.unknownCallGas) with
  | (machine, .error _) => .ok { execution with machine }
  | (machine, .ok ()) => do
    let registers ← writeRegister machine.registers HostCall.resultRegister.val ResultCode.what.word
    return { execution with machine := { machine with registers }.resume }

def Checked.serve (handler : Handler ε) (execution : Execution ε) : Except Crash (Execution ε) :=
  match execution.machine.chargeGas (handler.cost execution.machine.registers) with
  | (machine, .error _) => .ok { execution with machine }
  | (machine, .ok ()) => do
    let (verdict, view, reports) ← HostProgram.Checked.run handler.execute machine.view
    return { machine := (machine.withView view).conclude verdict, reports := execution.reports ++ reports }

def Checked.dispatch (dispatcher : Dispatcher ε) (index : UInt32) (execution : Execution ε) :
    Except Crash (Execution ε) :=
  match dispatcher.registry.get? index with
  | none => refuse dispatcher execution
  | some handler => serve handler execution

def Checked.advance (dispatcher : Dispatcher ε) (execution : Execution ε) : Except Crash (Execution ε) :=
  match execution.machine.status with
  | .continuing => do
    let machine ← Machine.Checked.step execution.machine
    return { execution with machine }
  | .hostCall index => dispatch dispatcher index execution
  | .halt | .panic | .outOfGas => .ok execution

def Checked.runProgram? (dispatcher : Dispatcher ε) (machine : Machine) :
    Except Crash (Option (Execution ε × ExecutionResult)) := do
  match ← Checked.iterateUntil? isFinished (advance dispatcher) (allowance machine) ⟨machine, #[]⟩ with
  | none => return none
  | some last =>
    let result ← Machine.Checked.result last.machine
    return some (last, result)

private theorem sound_refuse (dispatcher : Dispatcher ε) (sound : execution.machine.view.Sound) :
    (dispatcher.refuse execution).machine.view.Sound := by
  have charged := Machine.sound_chargeGas sound (.fixed dispatcher.unknownCallGas)
  unfold refuse
  cases outcome : execution.machine.chargeGas (.fixed dispatcher.unknownCallGas) with
  | mk machine verdict =>
    rw [outcome] at charged
    cases verdict with
    | error error => exact charged
    | ok paid =>
      have resumed : ∀ machine : Machine, machine.resume.view = machine.view := (·.view_conclude none)
      dsimp only
      rw [resumed]
      exact ⟨charged.memory, charged.gas⟩

private theorem sound_serve (handler : Handler ε) (sound : execution.machine.view.Sound) :
    (serve handler execution).machine.view.Sound := by
  have charged := Machine.sound_chargeGas sound (handler.cost execution.machine.registers)
  unfold serve
  cases outcome : execution.machine.chargeGas (handler.cost execution.machine.registers) with
  | mk machine verdict =>
    rw [outcome] at charged
    cases verdict with
    | error error => exact charged
    | ok paid =>
      dsimp only
      rw [Machine.view_conclude]
      exact handler.execute.sound_run charged

private theorem sound_advance (dispatcher : Dispatcher ε) (sound : execution.machine.view.Sound) :
    (dispatcher.advance execution).machine.view.Sound := by
  unfold advance
  cases execution.machine.status with
  | continuing => exact Machine.sound_step sound
  | hostCall index =>
    dsimp only
    unfold dispatch
    cases dispatcher.registry.get? index with
    | none => exact dispatcher.sound_refuse sound
    | some handler => exact sound_serve handler sound
  | halt => exact sound
  | panic => exact sound
  | outOfGas => exact sound

private theorem sound_advances (dispatcher : Dispatcher ε) (sound : execution.machine.view.Sound) (count : Nat) :
    (dispatcher.advance^[count] execution).machine.view.Sound :=
  Function.Iterate.rec (fun execution : Execution ε => execution.machine.view.Sound)
    sound (fun _ => dispatcher.sound_advance) count

namespace Checked

private theorem refuse_eq (dispatcher : Dispatcher ε) (execution : Execution ε) :
    refuse dispatcher execution = .ok (dispatcher.refuse execution) := by
  unfold refuse Dispatcher.refuse
  cases execution.machine.chargeGas (.fixed dispatcher.unknownCallGas) with
  | mk machine verdict =>
    cases verdict with
    | error error => rfl
    | ok paid =>
      dsimp only
      rw [writeRegister_eq]
      rfl

private theorem serve_eq {handler : Handler ε} (modest : handler.execute.Modest) (execution : Execution ε) :
    serve handler execution = .ok (Dispatcher.serve handler execution) := by
  unfold serve Dispatcher.serve
  cases execution.machine.chargeGas (handler.cost execution.machine.registers) with
  | mk machine verdict =>
    cases verdict with
    | error error => rfl
    | ok paid =>
      dsimp only
      rw [HostProgram.Checked.run_eq modest]
      rfl

private theorem advance_eq (modest : dispatcher.Modest) (sound : execution.machine.view.Sound) :
    advance dispatcher execution = .ok (dispatcher.advance execution) := by
  unfold advance Dispatcher.advance
  cases execution.machine.status with
  | continuing =>
    dsimp only
    rw [Machine.Checked.step_eq sound.memory]
    rfl
  | hostCall index =>
    dsimp only
    unfold dispatch Dispatcher.dispatch
    cases known : dispatcher.registry.get? index with
    | none => exact refuse_eq dispatcher execution
    | some handler => exact serve_eq (modest index handler known) execution
  | halt => rfl
  | panic => rfl
  | outOfGas => rfl

variable {machine : Machine}

private theorem iterate_advance_eq (modest : dispatcher.Modest) (sound : execution.machine.view.Sound) (count : Nat) :
    Checked.iterate (advance dispatcher) count execution = .ok (dispatcher.advance^[count] execution) :=
  Checked.iterate_eq (fun execution : Execution ε => execution.machine.view.Sound)
    (fun _ sound => ⟨advance_eq modest sound, dispatcher.sound_advance sound⟩) sound count

private theorem runProgram?_eq (modest : dispatcher.Modest) (sound : machine.view.Sound) :
    runProgram? dispatcher machine =
      .ok ((dispatcher.run? machine).map fun last => (last, last.machine.result)) := by
  have ran : Checked.iterateUntil? isFinished (advance dispatcher) (allowance machine) ⟨machine, #[]⟩ =
      .ok (dispatcher.run? machine) :=
    Checked.iterateUntil?_eq (fun execution : Execution ε => execution.machine.view.Sound)
      (fun _ sound => ⟨advance_eq modest sound, dispatcher.sound_advance sound⟩) sound (allowance machine)
  rw [runProgram?, ran, ok_bind]
  cases found : dispatcher.run? machine with
  | none => rfl
  | some last =>
    obtain ⟨-, k, -, rfl⟩ := dispatcher.run?_eq_some_iff.mp found
    dsimp only
    rw [Machine.Checked.result_eq (dispatcher.sound_advances sound k)]
    rfl

end Checked

end Dispatcher

namespace Node

private theorem modest_gasProgram : gasProgram.Modest := fun _ => trivial

private theorem modest_logProgram : logProgram.Modest := by
  intro address length
  have refuses : logProgram.refused.Modest := trivial
  simp only [HostProgram.bind]
  split
  · exact refuses
  rename_i short
  intro readable
  simp only [HostProgram.bind]
  split
  · exact refuses
  have small : length.toNat < 9223372036854775808 := by
    have le : length.toNat ≤ maxMessageLength.toNat := UInt64.not_lt.mp short
    exact Nat.lt_of_le_of_lt le (by decide)
  refine ⟨small, fun outcome => ?_⟩
  cases outcome with
  | error error => exact refuses
  | ok bytes => trivial

private theorem modest (unknownCallGas : UInt32) :
    Dispatcher.Modest (⟨registry, unknownCallGas⟩ : Dispatcher String) := by
  intro index handler known
  have listed := (registry.get?_eq_some_iff index handler).mp known
  simp only [registry, List.mem_cons, Prod.mk.injEq, List.not_mem_nil, or_false] at listed
  rcases listed with ⟨-, rfl⟩ | ⟨-, rfl⟩
  · exact modest_logProgram
  · exact modest_gasProgram

/-- No program brings down the node that runs it, whatever its bytes, its entry, its gas, its registers and the price
of an instruction are, on an empty memory or one that was laid out. With every operation checked, a machine alone takes
any number of steps without a crash and makes of them what it makes of them unchecked, and so does the node, host calls
included; a run and the result that is read off its end do not crash either. A machine alone stops only by halting, by a
panic, without gas or for a host call, and an execution ends only in one of the first three ways. -/
theorem no_program_crashes_node (machine : Machine) (program : Array UInt8) (pc : UInt32) (gas : UInt64)
    (registers : Option Registers) (memory : Option Memory) (fresh : ∀ given ∈ memory, given.Fresh)
    (unknownCallGas : UInt32) :
    let started := machine.reset program pc gas registers memory
    let node : Dispatcher String := ⟨registry, unknownCallGas⟩
    (∀ count, Checked.iterate Machine.Checked.step count started = .ok (Machine.step^[count] started)) ∧
    Machine.Checked.run? started = .ok started.run? ∧
    (∀ count stopped, Machine.step^[count] started = stopped → stopped.isRunning = false → stopped.status = .halt ∨
      stopped.status = .panic ∨ stopped.status = .outOfGas ∨ ∃ index, stopped.status = .hostCall index) ∧
    (∀ count, Checked.iterate (Dispatcher.Checked.advance node) count ⟨started, #[]⟩ =
      .ok (node.advance^[count] ⟨started, #[]⟩)) ∧
    Dispatcher.Checked.runProgram? node started =
      .ok ((node.run? started).map fun last => (last, last.machine.result)) ∧
    ∀ last, node.Ends started last → Machine.Checked.result last.machine = .ok last.machine.result ∧
      (last.machine.status = .halt ∨ last.machine.status = .panic ∨ last.machine.status = .outOfGas) := by
  intro started node
  have sound : started.view.Sound := machine.sound_reset program pc gas registers fresh
  have modest : node.Modest := modest unknownCallGas
  clear_value started node
  refine ⟨?_, Machine.Checked.run?_eq sound, ?_, ?_, Dispatcher.Checked.runProgram?_eq modest sound, ?_⟩
  · exact Checked.iterate_eq (fun machine : Machine => machine.view.Sound)
      (fun _ => Machine.Checked.step_eq_of_sound) sound
  · intro count stopped _ idle
    cases status : stopped.status with
    | continuing => simp [Machine.isRunning, status] at idle
    | halt => simp
    | panic => simp
    | outOfGas => simp
    | hostCall index => simp
  · exact Dispatcher.Checked.iterate_advance_eq modest sound
  · rintro last ⟨finished, count, rfl⟩
    refine ⟨Machine.Checked.result_eq (node.sound_advances sound count), ?_⟩
    unfold Dispatcher.isFinished Status.isTerminal at finished
    split at finished
    · simp [*]
    · simp [*]
    · simp [*]
    · cases finished
    · cases finished

/-- A program passes a message on and then jumps into the middle of its own jump, where no instruction starts. -/
theorem no_program_crashes_node_with_jump_into_itself :
    let registers := (Registers.zero.set messageAddressRegister 0x10000).set messageLengthRegister 2
    let node : Dispatcher String := ⟨registry, 10⟩
    ∃ memory last, memory.Fresh ∧
      Dispatcher.Checked.runProgram? node ((Machine.idle 1).reset #[10, 100, 0, 0, 0, 40, 6, 0, 0, 0] 0 20 (some registers)
        (some memory)) = .ok (some (last, ⟨.panic, 14⟩)) ∧ last.reports = #["hi"] := by
  intro registers node
  let steps : List LayoutStep := [.stage .read 0x10000 0x11000 #[104, 105]]
  have ends : (Layout.build steps 0 0).toOption.bind (fun memory =>
      (node.run? ((Machine.idle 1).reset #[10, 100, 0, 0, 0, 40, 6, 0, 0, 0] 0 20 (some registers) (some memory))).map
        fun last => (last.machine.result, last.reports)) = some (⟨.panic, 14⟩, #["hi"]) := by decide +kernel
  cases built : Layout.build steps 0 0 with
  | error error =>
    rw [built] at ends
    cases ends
  | ok memory =>
    have fresh : memory.Fresh := .laidOut steps 0 0 memory built
    obtain ⟨-, -, -, -, ran, -⟩ := no_program_crashes_node (Machine.idle 1) #[10, 100, 0, 0, 0, 40, 6, 0, 0, 0] 0 20
      (some registers) (some memory) (by simpa using fresh) 10
    simp only [built, Except.toOption, Option.bind_some, Option.map_eq_some_iff, Prod.mk.injEq] at ends
    obtain ⟨last, found, outcome, reports⟩ := ends
    refine ⟨memory, last, fresh, ?_, reports⟩
    rw [ran, found, Option.map_some, outcome]

end Node

end MeteredVm
