import MeteredVm.Config
import MeteredVm.Proofs.Execution.Endings
import MeteredVm.Proofs.Instruction.RoundTrip
import MeteredVm.Proofs.Machine.Classification

/-!
Where the program counter goes. It counts the bytes of a code in 32 bits. Decoding reads within the code, so the offset
behind an instruction is at most the length of the code, and the counter can name it as long as the code is shorter
than 2^32 bytes. Then the counter goes forward with every instruction that does not jump, and an execution that leaves
the code at its end panics there. In a code of 2^32 bytes the offset behind the last instruction is 0 to the counter.
The main statement says that settings rule this out exactly if they bound the length of codes below that.
-/

set_option autoImplicit false
set_option relaxedAutoImplicit false

namespace MeteredVm

namespace Machine

private theorem program_step (machine : Machine) : machine.step.program = machine.program := by
  have steps := machine.step_steps
  generalize machine.step = after at steps
  cases steps with
  | executes instruction next after _ _ _ executed => cases executed <;> rfl
  | stays => rfl
  | undecodable => rfl
  | unaffordable => rfl

/-- The machine executes an instruction that does not jump, and the execution goes on behind it, at once or after a
host call. -/
structure StepsPast (machine : Machine) : Prop where
  running : machine.status = .continuing
  goesOn : machine.step.status.isTerminal = false
  jumpless : ∀ instruction next target, decode machine.program machine.pc = .ok (instruction, next) →
    machine.effect instruction ≠ .jump target

private theorem step_becomes {machine : Machine} (running : machine.status = .continuing) :
    machine.step = machine.stop .panic ∨
    machine.step = (machine.pay machine.instructionGas.toUInt64).stop .outOfGas ∨
    ∃ instruction next, decode machine.program machine.pc = .ok (instruction, next) ∧
      (machine.pay machine.instructionGas.toUInt64).Becomes next (machine.effect instruction) machine.step := by
  cases decoded : decode machine.program machine.pc with
  | error error => exact .inl (step_of_undecodable running decoded)
  | ok found =>
    obtain ⟨instruction, next⟩ := found
    cases paid : (machine.pay machine.instructionGas.toUInt64).gas.isOverdrawn with
    | true => exact .inr (.inl (step_of_overdrawn running decoded paid))
    | false =>
      refine .inr (.inr ⟨instruction, next, rfl, ?_⟩)
      rw [step_of_affordable running decoded paid]
      exact execute_becomes _ next instruction

private theorem Becomes.pc_eq_next {machine after : Machine} {next : UInt32} {effect : Effect}
    (becomes : machine.Becomes next effect after) (goesOn : after.status.isTerminal = false)
    (jumpless : ∀ target, effect ≠ .jump target) : after.pc = next := by
  cases becomes with
  | asks => rfl
  | loads => rfl
  | stores => rfl
  | computes => rfl
  | jumps pc => exact absurd rfl (jumpless pc.toNat)
  | traps => cases goesOn
  | missesLoad => cases goesOn
  | missesStore => cases goesOn
  | missesJump => cases goesOn
  | halts => cases goesOn

/-- Past an instruction the counter is the offset behind it, cut to the 32 bits that it has. -/
private theorem StepsPast.exists_width {machine : Machine} (past : machine.StepsPast) :
    ∃ width, 0 < width ∧ machine.pc.toNat + width ≤ machine.program.size ∧
      machine.step.pc = UInt32.ofNat (machine.pc.toNat + width) := by
  have goesOn := past.goesOn
  rcases step_becomes past.running with panics | exhausted | ⟨instruction, next, decoded, becomes⟩
  · rw [panics] at goesOn
    cases goesOn
  · rw [exhausted] at goesOn
    cases goesOn
  · obtain ⟨inside, behind⟩ := extent_of_decode decoded
    have reached := becomes.pc_eq_next goesOn fun target => past.jumpless instruction next target decoded
    exact ⟨instruction.mnemonic.size, instruction.mnemonic.size_pos, inside, reached.trans behind⟩

private theorem StepsPast.forward {machine : Machine} (past : machine.StepsPast)
    (small : machine.program.size < UInt32.size) :
    machine.pc < machine.step.pc ∧ machine.step.pc.toNat ≤ machine.program.size := by
  obtain ⟨width, pos, inside, behind⟩ := past.exists_width
  have reached : machine.step.pc.toNat = machine.pc.toNat + width := by
    rw [behind]
    exact UInt32.toNat_ofNat_of_lt' (by omega)
  rw [UInt32.lt_iff_toNat_lt]
  omega

/-- A step leaves the counter where it is, jumps to an instruction, or goes past one. -/
private theorem pc_step_cases (machine : Machine) :
    machine.step.pc = machine.pc ∨ machine.step.pc.toNat < machine.program.size ∨ machine.StepsPast := by
  by_cases running : machine.status = .continuing
  · rcases step_becomes running with panics | exhausted | ⟨instruction, next, decoded, becomes⟩
    · exact .inl (by rw [panics]; rfl)
    · exact .inl (by rw [exhausted]; rfl)
    · cases ended : machine.step.status.isTerminal with
      | true => exact .inl (becomes.unchanged_of_terminal running ended).1
      | false =>
        by_cases jumps : ∃ target, machine.effect instruction = .jump target
        · obtain ⟨target, effect⟩ := jumps
          rw [effect] at becomes
          generalize machine.step = after at becomes ended ⊢
          cases becomes with
          | jumps pc inside => exact .inr (.inl inside)
          | missesJump => cases ended
        · refine .inr (.inr ⟨running, ended, ?_⟩)
          intro instruction' next' target decoded' effect
          obtain ⟨rfl, rfl⟩ := Prod.mk.inj (Except.ok.inj (decoded.symm.trans decoded'))
          exact jumps ⟨target, effect⟩
  · have stopped : machine.step = machine := if_pos running
    exact .inl (by rw [stopped])

private theorem pc_step_le {machine : Machine} (small : machine.program.size < UInt32.size)
    (inside : machine.pc.toNat ≤ machine.program.size) : machine.step.pc.toNat ≤ machine.program.size := by
  rcases machine.pc_step_cases with stays | jumps | past
  · rw [stays]
    exact inside
  · exact Nat.le_of_lt jumps
  · exact (past.forward small).2

private theorem step_of_outside {machine : Machine} (running : machine.status = .continuing)
    (outside : machine.program.size ≤ machine.pc.toNat) : machine.step = machine.stop .panic :=
  step_of_undecodable running (decode_of_outside outside)

private theorem pc_step_of_outside {machine : Machine} (outside : machine.program.size ≤ machine.pc.toNat) :
    machine.step.pc = machine.pc := by
  by_cases running : machine.status = .continuing
  · rw [step_of_outside running outside]
    rfl
  · rw [show machine.step = machine from if_pos running]

/-- Machines that stand at the same place of the same program, whatever else sets them apart. -/
structure SamePlace (before after : Machine) : Prop where
  program : after.program = before.program
  pc : after.pc = before.pc

/-- A run in the hands of a host: the machine makes steps, and between them the host does what it likes, but for the
program and the counter. -/
def IsRun (run : Nat → Machine) : Prop :=
  ∀ n, run (n + 1) = (run n).step ∨ (run n).SamePlace (run (n + 1))

/-- How the counter goes through the code in a run. -/
structure CounterAdvances (run : Nat → Machine) : Prop where
  inside : ∀ n, (run n).pc.toNat ≤ (run 0).program.size
  forward : ∀ n, (run n).StepsPast →
    (run n).pc < (run n).step.pc ∧ (run n).step.pc.toNat ≤ (run 0).program.size
  /-- At the end of the code there is nothing to execute, and a machine that is to do so panics. -/
  panics : ∀ n, (run n).pc.toNat = (run 0).program.size → (run n).status = .continuing →
    (run n).step = (run n).stop .panic
  /-- There is no way back from the end of the code. -/
  stays : ∀ n m, n ≤ m → (run n).pc.toNat = (run 0).program.size → (run m).pc = (run n).pc

namespace IsRun

variable {run : Nat → Machine} (runs : IsRun run)

include runs

private theorem program_eq (n : Nat) : (run n).program = (run 0).program := by
  induction n with
  | zero => rfl
  | succ n ih =>
    rcases runs n with steps | same
    · rw [steps, program_step, ih]
    · rw [same.program, ih]

private theorem pc_le (small : (run 0).program.size < UInt32.size) (start : (run 0).pc = 0) (n : Nat) :
    (run n).pc.toNat ≤ (run 0).program.size := by
  induction n with
  | zero =>
    rw [start]
    exact Nat.zero_le _
  | succ n ih =>
    rcases runs n with steps | same
    · rw [← runs.program_eq n] at small ih ⊢
      rw [steps]
      exact pc_step_le small ih
    · rw [same.pc]
      exact ih

private theorem pc_eq_of_outside {n m : Nat} (outside : (run 0).program.size ≤ (run n).pc.toNat) (le : n ≤ m) :
    (run m).pc = (run n).pc := by
  induction m, le using Nat.le_induction with
  | base => rfl
  | succ m _ ih =>
    rcases runs m with steps | same
    · rw [steps, pc_step_of_outside, ih]
      rw [runs.program_eq m, ih]
      exact outside
    · rw [same.pc, ih]

private theorem counterAdvances (small : (run 0).program.size < UInt32.size) (start : (run 0).pc = 0) :
    CounterAdvances run where
  inside := runs.pc_le small start
  forward := by
    intro n past
    rw [← runs.program_eq n] at small ⊢
    exact past.forward small
  panics := by
    intro n atEnd running
    exact step_of_outside running (by rw [runs.program_eq n, atEnd])
  stays := by
    intro n m le atEnd
    exact runs.pc_eq_of_outside (Nat.le_of_eq atEnd.symm) le

end IsRun

private theorem isRun_iterate (machine : Machine) : IsRun fun n => step^[n] machine :=
  fun n => .inl (Function.iterate_succ_apply' step n machine)

private theorem samePlace_conclude (machine : Machine) (verdict : Option HostVerdict) :
    machine.SamePlace (machine.conclude verdict) := by
  cases verdict with
  | some verdict => cases verdict <;> exact ⟨rfl, rfl⟩
  | none =>
    simp only [conclude, resume]
    cases machine.status <;> exact ⟨rfl, rfl⟩

end Machine

/-- The machine is about to execute an instruction where there is no code any more. -/
structure Moment.OffCode {ε : Type} (moment : Moment ε) : Prop where
  free : moment.handler = none
  running : moment.machine.status = .continuing
  outside : moment.machine.program.size ≤ moment.machine.pc.toNat

namespace Dispatcher

variable {ε : Type} (dispatcher : Dispatcher ε)

/-- To the program and its counter, whatever the handlers of an execution do is nothing but a host's meddling. -/
private theorem isRun_moments (machine : Machine) : Machine.IsRun fun n => (dispatcher.moments machine n).machine := by
  intro n
  dsimp only
  rw [moments_succ]
  generalize dispatcher.moments machine n = moment
  by_cases goes : moment.handler = none ∧ moment.machine.status = .continuing
  · left
    rw [dispatcher.tick_of_running goes.1 goes.2]
    rfl
  · right
    have ticks := dispatcher.tick_ticks moment
    generalize dispatcher.tick moment = after at ticks
    cases ticks with
    | steps machine free running => exact absurd ⟨free, running⟩ goes
    | rests => exact ⟨rfl, rfl⟩
    | overdraws => exact ⟨rfl, rfl⟩
    | refuses => exact ⟨rfl, rfl⟩
    | begins => exact ⟨rfl, rfl⟩
    | serves => exact ⟨rfl, rfl⟩
    | concludes verdict => exact moment.machine.samePlace_conclude verdict

private theorem moments_of_offCode {machine : Machine} {n m : Nat} (off : (dispatcher.moments machine n).OffCode)
    (later : n < m) :
    dispatcher.moments machine m = Execution.moment
      ⟨(dispatcher.moments machine n).machine.stop .panic, (dispatcher.moments machine n).reports⟩ := by
  have panics : dispatcher.moments machine (n + 1) = Execution.moment
      ⟨(dispatcher.moments machine n).machine.stop .panic, (dispatcher.moments machine n).reports⟩ := by
    rw [moments_succ, dispatcher.tick_of_running off.free off.running, Machine.step_of_outside off.running off.outside]
  rw [dispatcher.moments_of_ended (n := n + 1) ?_ ?_ later, panics]
  · rw [panics]
    rfl
  · rw [panics]
    rfl

end Dispatcher

/-- In every run of a program from its start, the counter only leaves an instruction forward or by a jump. -/
def NeverWraps (program : Array UInt8) : Prop :=
  ∀ (run : Nat → Machine) (machine : Machine) (gas : UInt64) (registers : Option Registers) (memory : Option Memory),
    run 0 = machine.reset program 0 gas registers memory → Machine.IsRun run → Machine.CounterAdvances run

private theorem neverWraps_of_small {program : Array UInt8} (small : program.size < UInt32.size) :
    NeverWraps program := by
  intro run machine gas registers memory start runs
  refine runs.counterAdvances ?_ ?_
  · rw [start]
    exact small
  · rw [start]
    rfl

/-- A jump to the last offset that a counter can name, and behind it instructions that do nothing. -/
def longJump (padding : Nat) : Array UInt8 :=
  ((Instruction.jump 4294967295).encode ++ List.replicate padding 1 ++ Instruction.fallthrough.encode).toArray

private theorem decode_longJump (padding : Nat) : decode (longJump padding) 0 = .ok (.jump 4294967295, 5) := by
  have first := decode_encode [] (List.replicate padding 1 ++ Instruction.fallthrough.encode) (.jump 4294967295)
    (by decide)
  rw [List.nil_append, ← List.append_assoc] at first
  exact first

section

variable {padding : Nat} (long : padding + 6 = UInt32.size)

include long

private theorem size_longJump : (longJump padding).size = UInt32.size := by
  rw [longJump, List.size_toArray, List.length_append, List.length_append, List.length_replicate,
    Instruction.length_encode, Instruction.length_encode, ← long]
  show 5 + padding + 1 = padding + 6
  omega

private theorem decode_longJump_last : decode (longJump padding) 4294967295 = .ok (.fallthrough, 0) := by
  have length : ((Instruction.jump 4294967295).encode ++ List.replicate padding 1).length = 4294967295 := by
    rw [List.length_append, List.length_replicate, Instruction.length_encode]
    show 5 + padding = 4294967295
    have size : UInt32.size = 4294967296 := rfl
    omega
  have last := decode_encode ((Instruction.jump 4294967295).encode ++ List.replicate padding 1) []
    .fallthrough (by rw [length]; decide)
  rw [length, List.append_nil] at last
  exact last

variable {machine : Machine} (program : machine.program = longJump padding) (running : machine.status = .continuing)
  (paid : (machine.pay machine.instructionGas.toUInt64).gas.isOverdrawn = false)

include program running paid

private theorem step_longJump (start : machine.pc = 0) :
    machine.step = { machine.pay machine.instructionGas.toUInt64 with pc := 4294967295 } := by
  have decoded : decode machine.program machine.pc = .ok (.jump 4294967295, 5) := by
    rw [program, start]
    exact decode_longJump padding
  have inside : (4294967295 : UInt32).toNat < (machine.pay machine.instructionGas.toUInt64).program.size := by
    show 4294967295 < machine.program.size
    rw [program, size_longJump long]
    decide
  rw [Machine.step_of_affordable running decoded paid]
  exact if_pos inside

private theorem step_longJump_last (last : machine.pc = 4294967295) :
    machine.step = { machine.pay machine.instructionGas.toUInt64 with pc := 0 } ∧ machine.StepsPast := by
  have decoded : decode machine.program machine.pc = .ok (.fallthrough, 0) := by
    rw [program, last]
    exact decode_longJump_last long
  have steps : machine.step = { machine.pay machine.instructionGas.toUInt64 with pc := 0 } :=
    Machine.step_of_affordable running decoded paid
  refine ⟨steps, running, ?_, ?_⟩
  · rw [steps]
    show machine.status.isTerminal = false
    rw [running]
    rfl
  · intro instruction next target decoded' effect
    obtain ⟨rfl, rfl⟩ := Prod.mk.inj (Except.ok.inj (decoded.symm.trans decoded'))
    cases effect

omit program running paid

private theorem longJump_comes_around :
    let started := (Machine.idle 1).reset (longJump padding) 0 10 none none
    started.step.pc = 4294967295 ∧ started.step.StepsPast ∧ started.step.step.pc = 0 ∧
      started.step.step.status = .continuing := by
  intro started
  let jumped : Machine := { started.pay started.instructionGas.toUInt64 with pc := 4294967295 }
  have first : started.step = jumped := step_longJump long rfl rfl rfl rfl
  obtain ⟨second, past⟩ : jumped.step = { jumped.pay jumped.instructionGas.toUInt64 with pc := 0 } ∧ jumped.StepsPast :=
    step_longJump_last long rfl rfl rfl rfl
  rw [first, second]
  exact ⟨rfl, past, rfl, rfl⟩

private theorem not_neverWraps_longJump : ¬ NeverWraps (longJump padding) := by
  intro never
  have comes := longJump_comes_around long
  dsimp only at comes
  generalize start : (Machine.idle 1).reset (longJump padding) 0 10 none none = started at comes
  obtain ⟨-, past, around, -⟩ := comes
  have advances : Machine.CounterAdvances fun n => Machine.step^[n] started :=
    never _ (Machine.idle 1) 10 none none start.symm started.isRun_iterate
  obtain ⟨forward, -⟩ := advances.forward 1 past
  have impossible : started.step.pc < 0 := around ▸ forward
  exact absurd impossible UInt32.not_lt_zero

end

/-- Where the counter goes in runs from the start of a program, with any host and any host calls. Executions with their
handlers are such runs. The counter of a program that is shorter than 2^32 bytes stays within the code. It goes
forward with every instruction that does not jump, an `ecalli` among them, and never comes back from the end of the
code, where the execution panics. The settings see to it that no longer program is accepted exactly if they bound the
length of programs below 2^32; to be valid, they need not. -/
theorem counter_never_wraps_unless_code_outgrows_it (config : VmConfig) :
    (∀ program : Array UInt8, program.size < UInt32.size → NeverWraps program) ∧
    ((∀ program : Array UInt8, config.checkCodeSize program.size = .ok () → NeverWraps program) ↔
      config.maxCodeSize < UInt32.size) ∧
    ∀ {ε : Type} (dispatcher : Dispatcher ε) (machine : Machine),
      (Machine.IsRun fun n => (dispatcher.moments machine n).machine) ∧
      ∀ n m, (dispatcher.moments machine n).OffCode → n < m →
        dispatcher.moments machine m = Execution.moment
          ⟨(dispatcher.moments machine n).machine.stop .panic, (dispatcher.moments machine n).reports⟩ := by
  refine ⟨fun program => neverWraps_of_small, ⟨fun never => ?_, fun bounded program accepted => ?_⟩,
    fun dispatcher machine => ⟨dispatcher.isRun_moments machine, fun n m => dispatcher.moments_of_offCode⟩⟩
  · by_contra outgrown
    have long : 4294967290 + 6 = UInt32.size := rfl
    refine not_neverWraps_longJump long (never _ ?_)
    rw [size_longJump long]
    exact if_neg outgrown
  · refine neverWraps_of_small ?_
    have within : ¬ config.maxCodeSize < program.size := by
      intro exceeds
      rw [VmConfig.checkCodeSize, if_pos exceeds] at accepted
      cases accepted
    omega

/-- Two instructions, the last of which is a host call that nobody serves. The counter goes from 0 over 1 to 6, which is
the end of the code, and stays there when the execution goes on and panics. -/
theorem counter_never_wraps_unless_code_outgrows_it_of_last_call :
    let quiet : Dispatcher Unit := ⟨Registry.empty, 10⟩
    let started := (Machine.idle 1).reset #[1, 10, 7, 0, 0, 0] 0 50 none none
    let now := quiet.moments started
    ((now 1).machine.pc < (now 1).machine.step.pc ∧ (now 1).machine.step.pc.toNat ≤ 6) ∧
      (now 2).machine.status = .hostCall 7 ∧ (now 3).machine.pc.toNat = 6 ∧
      (now 3).machine.step = (now 3).machine.stop .panic ∧
      ∀ m, 3 < m → (now m).machine.status = .panic ∧ (now m).machine.pc = (now 3).machine.pc := by
  intro quiet started now
  obtain ⟨-, accepted, executions⟩ := counter_never_wraps_unless_code_outgrows_it VmConfig.standard
  obtain ⟨runs, panics⟩ := executions quiet started
  have never := accepted.mpr (by decide) #[1, 10, 7, 0, 0, 0] rfl
  have advances : Machine.CounterAdvances fun n => (now n).machine := never _ (Machine.idle 1) 50 none none rfl runs
  have last : decode (now 1).machine.program (now 1).machine.pc = .ok (.ecalli 7, 6) := by decide +kernel
  have past : (now 1).machine.StepsPast := by
    refine ⟨by decide +kernel, by decide +kernel, ?_⟩
    intro instruction next target decoded effect
    obtain ⟨rfl, rfl⟩ := Prod.mk.inj (Except.ok.inj (last.symm.trans decoded))
    cases effect
  have atEnd : (now 3).machine.pc.toNat = 6 := by decide +kernel
  have running : (now 3).machine.status = .continuing := by decide +kernel
  have off : (now 3).OffCode := ⟨rfl, running, by decide +kernel⟩
  refine ⟨advances.forward 1 past, by decide +kernel, atEnd, advances.panics 3 atEnd running, fun m later => ?_⟩
  refine ⟨?_, advances.stays 3 m (by omega) atEnd⟩
  exact congrArg (fun moment => moment.machine.status) (panics 3 m off later)

/-- Settings that are valid accept a code of 2^32 bytes, whose second instruction goes from its last byte to its
first. -/
theorem counter_wraps_in_outgrown_code :
    let config : VmConfig := { VmConfig.standard with maxCodeSize := 4294967296 }
    let started := (Machine.idle config.instructionGas).reset (longJump 4294967290) 0 10 none none
    config.validate = .ok () ∧ config.checkCodeSize (longJump 4294967290).size = .ok () ∧
      started.step.pc = 4294967295 ∧ started.step.StepsPast ∧ started.step.step.pc = 0 ∧
      started.step.step.status = .continuing ∧ ¬ NeverWraps (longJump 4294967290) := by
  intro config started
  have long : 4294967290 + 6 = UInt32.size := rfl
  obtain ⟨first, past, second, goesOn⟩ := longJump_comes_around long
  refine ⟨rfl, ?_, first, past, second, goesOn, not_neverWraps_longJump long⟩
  rw [size_longJump long]
  rfl

end MeteredVm
