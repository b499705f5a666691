import MeteredVm.Proofs.Execution.Spending

/-!
How executions end. An execution has at most one end, and it rests there. The main statement is about executions that
end with an overdrawn counter: no instruction takes effect any more once the counter is overdrawn, and the execution
ends for want of gas unless a handler that overdrew the counter asked for another end or left the machine where there
is no instruction.
-/

set_option autoImplicit false
set_option relaxedAutoImplicit false

namespace MeteredVm

private theorem iterateUntil?_eq_some_iff {σ : Type} {finished : σ → Bool} {next : σ → σ}
    (rests : ∀ state, finished state = true → next state = state) {fuel : Nat} {first last : σ} :
    iterateUntil? finished next fuel first = some last ↔
      finished last = true ∧ ∃ k ≤ fuel, next^[k] first = last := by
  induction fuel generalizing first with
  | zero =>
    simp only [iterateUntil?, Option.ite_none_right_eq_some, Option.some.injEq, Nat.le_zero]
    constructor
    · rintro ⟨done, rfl⟩
      exact ⟨done, 0, rfl, rfl⟩
    · rintro ⟨done, k, rfl, rfl⟩
      exact ⟨done, rfl⟩
  | succ fuel ih =>
    rw [iterateUntil?]
    cases done : finished first with
    | true =>
      have fixed : ∀ k, next^[k] first = first := Function.iterate_fixed (rests first done)
      simp only [if_true, Option.some.injEq]
      constructor
      · rintro rfl
        exact ⟨done, 0, Nat.zero_le _, rfl⟩
      · rintro ⟨-, k, -, rfl⟩
        exact (fixed k).symm
    | false =>
      simp only [Bool.false_eq_true, if_false, ih]
      constructor
      · rintro ⟨ended, k, le, reached⟩
        exact ⟨ended, k + 1, by omega, reached⟩
      · rintro ⟨ended, k, le, reached⟩
        cases k with
        | zero =>
          obtain rfl : first = last := reached
          exact absurd (done.symm.trans ended) (by simp)
        | succ k => exact ⟨ended, k, by omega, reached⟩

namespace Dispatcher

variable {ε : Type} (dispatcher : Dispatcher ε)

/-- The execution of a machine comes to an end, at this state. -/
def Ends (machine : Machine) (last : Execution ε) : Prop :=
  isFinished last = true ∧ ∃ k, dispatcher.advance^[k] ⟨machine, #[]⟩ = last

theorem advance_of_isFinished {execution : Execution ε} (done : isFinished execution = true) :
    dispatcher.advance execution = execution := by
  unfold advance
  cases status : execution.machine.status with
  | continuing => simp [isFinished, status, Status.isTerminal] at done
  | hostCall index => simp [isFinished, status, Status.isTerminal] at done
  | halt => rfl
  | panic => rfl
  | outOfGas => rfl

theorem run?_eq_some_iff {machine : Machine} {last : Execution ε} :
    dispatcher.run? machine = some last ↔
      isFinished last = true ∧ ∃ k ≤ allowance machine, dispatcher.advance^[k] ⟨machine, #[]⟩ = last :=
  iterateUntil?_eq_some_iff fun _ => dispatcher.advance_of_isFinished

theorem ends_of_run? {machine : Machine} {last : Execution ε} (ran : dispatcher.run? machine = some last) :
    dispatcher.Ends machine last := by
  obtain ⟨done, k, -, reached⟩ := dispatcher.run?_eq_some_iff.mp ran
  exact ⟨done, k, reached⟩

theorem tick_of_running {moment : Moment ε} (free : moment.handler = none)
    (running : moment.machine.status = .continuing) :
    dispatcher.tick moment = Execution.moment ⟨moment.machine.step, moment.reports⟩ := by
  simp [tick, free, running]

private theorem tick_of_ended {moment : Moment ε} (free : moment.handler = none)
    (ended : moment.machine.status.isTerminal = true) : dispatcher.tick moment = moment := by
  have ticks := dispatcher.tick_ticks moment
  generalize dispatcher.tick moment = after at ticks
  cases ticks with
  | rests => rfl
  | steps machine _ running => simp [running, Status.isTerminal] at ended
  | overdraws index amount _ pending => simp [pending, Status.isTerminal] at ended
  | refuses index amount _ pending => simp [pending, Status.isTerminal] at ended
  | begins index amount handler _ pending => simp [pending, Status.isTerminal] at ended
  | serves program rest view reports held => exact absurd (free.symm.trans held) (by simp)
  | concludes verdict held => exact absurd (free.symm.trans held) (by simp)

theorem moments_of_ended {machine : Machine} {n m : Nat} (free : (dispatcher.moments machine n).handler = none)
    (ended : (dispatcher.moments machine n).machine.status.isTerminal = true) (le : n ≤ m) :
    dispatcher.moments machine m = dispatcher.moments machine n := by
  induction m, le using Nat.le_induction with
  | base => rfl
  | succ m _ ih =>
    rw [moments_succ, ih]
    exact dispatcher.tick_of_ended free ended

variable {dispatcher} {machine : Machine} {last : Execution ε}

theorem Ends.exists_moment (ends : dispatcher.Ends machine last) :
    ∃ n, dispatcher.moments machine n = last.moment := by
  obtain ⟨-, k, rfl⟩ := ends
  exact dispatcher.exists_moment_of_advances machine k

private theorem Ends.moment_eq (ends : dispatcher.Ends machine last) {n : Nat}
    (free : (dispatcher.moments machine n).handler = none)
    (ended : (dispatcher.moments machine n).machine.status.isTerminal = true) :
    dispatcher.moments machine n = last.moment := by
  obtain ⟨m, reached⟩ := ends.exists_moment
  rcases Nat.le_total n m with le | le
  · rw [← reached]
    exact (dispatcher.moments_of_ended free ended le).symm
  · rw [← reached]
    refine dispatcher.moments_of_ended ?_ ?_ le
    · rw [reached]
      rfl
    · rw [reached]
      exact ends.1

theorem Ends.unique {other : Execution ε} (ends : dispatcher.Ends machine last)
    (ends' : dispatcher.Ends machine other) : other = last := by
  obtain ⟨n, reached⟩ := ends'.exists_moment
  have same := ends.moment_eq (n := n) (by rw [reached]; rfl) (by rw [reached]; exact ends'.1)
  rw [reached] at same
  exact congrArg Moment.toExecution same

end Dispatcher

theorem GasCounter.isOverdrawn_new (gas : UInt64) : (new gas).isOverdrawn = false := by
  refine decide_eq_false ?_
  simp only [new]
  omega

namespace Machine

private theorem Steps.of_overdrawn {machine after : Machine} (h : machine.Steps after)
    (running : machine.status = .continuing) (overdrawn : machine.gas.isOverdrawn = true) :
    (∃ error, decode machine.program machine.pc = .error error ∧ after = machine.stop .panic) ∨
    ∃ found, decode machine.program machine.pc = .ok found ∧
      after = (machine.pay machine.instructionGas.toUInt64).stop .outOfGas := by
  cases h with
  | stays stopped => exact absurd running stopped
  | undecodable error _ failed => exact .inl ⟨error, failed, rfl⟩
  | unaffordable instruction next _ decoded => exact .inr ⟨_, decoded, rfl⟩
  | executes instruction next _ _ _ affordable =>
    have still : (machine.pay machine.instructionGas.toUInt64).gas.isOverdrawn = true :=
      GasCounter.isOverdrawn_deduct overdrawn
    exact absurd (affordable.symm.trans still) (by simp)

private theorem terminal_of_overdrawn (machine : Machine) (running : machine.status = .continuing)
    (overdrawn : machine.gas.isOverdrawn = true) : machine.step.status.isTerminal = true := by
  rcases machine.step_steps.of_overdrawn running overdrawn with ⟨error, -, ends⟩ | ⟨found, -, ends⟩
  · rw [ends]
    rfl
  · rw [ends]
    rfl

theorem conclude_none {machine : Machine} {index : UInt32} (pending : machine.status = .hostCall index) :
    machine.conclude none = machine.stop .continuing := by
  simp only [conclude, resume, pending]

end Machine

/-- A handler comes to its end and leaves the counter overdrawn. -/
structure Moment.LeavesDebt {ε : Type} (moment : Moment ε) (verdict : Option HostVerdict) : Prop where
  ended : moment.handler = some (.done verdict)
  overdrawn : moment.machine.gas.isOverdrawn = true

namespace Dispatcher

variable {ε : Type} (dispatcher : Dispatcher ε) {machine : Machine}

private theorem overdrawn_of_le {n m : Nat} (le : n ≤ m)
    (overdrawn : (dispatcher.moments machine n).machine.gas.isOverdrawn = true) :
    (dispatcher.moments machine m).machine.gas.isOverdrawn = true := by
  induction m, le using Nat.le_induction with
  | base => exact overdrawn
  | succ m _ ih =>
    rw [moments_succ]
    exact (dispatcher.tick_ticks _).charged.isOverdrawn ih

private theorem pending_of_handler {n : Nat} {program : HostProgram ε (Option HostVerdict)}
    (held : (dispatcher.moments machine n).handler = some program) :
    ∃ index, (dispatcher.moments machine n).machine.status = .hostCall index := by
  induction n generalizing program with
  | zero => cases held
  | succ n ih =>
    rw [moments_succ] at held ⊢
    have ticks := dispatcher.tick_ticks (dispatcher.moments machine n)
    generalize dispatcher.tick (dispatcher.moments machine n) = after at ticks held
    cases ticks with
    | rests free => exact absurd (free.symm.trans held) (by simp)
    | begins index amount handler _ pending => exact ⟨index, pending⟩
    | serves before rest view reports was => exact ih was
    | steps => cases held
    | overdraws => cases held
    | refuses => cases held
    | concludes => cases held

/-- An execution with an overdrawn counter has run out of gas, unless a handler is in charge or has left debt. -/
private theorem outOfGas_of_overdrawn (solvent : machine.gas.isOverdrawn = false) {n : Nat}
    (noDebt : ∀ k verdict, ¬ (dispatcher.moments machine k).LeavesDebt verdict)
    (free : (dispatcher.moments machine n).handler = none)
    (overdrawn : (dispatcher.moments machine n).machine.gas.isOverdrawn = true) :
    (dispatcher.moments machine n).machine.status = .outOfGas := by
  induction n with
  | zero => exact absurd (solvent.symm.trans overdrawn) (by simp)
  | succ n ih =>
    have before := noDebt n
    rw [moments_succ] at free overdrawn ⊢
    have ticks := dispatcher.tick_ticks (dispatcher.moments machine n)
    generalize dispatcher.moments machine n = moment at ih before ticks free overdrawn ⊢
    generalize dispatcher.tick moment = after at ticks free overdrawn ⊢
    cases ticks with
    | rests => exact ih free overdrawn
    | overdraws => rfl
    | begins => cases free
    | serves => cases free
    | refuses index amount _ _ _ _ affordable => exact absurd (affordable.symm.trans overdrawn) (by simp)
    | concludes verdict held =>
      have debt : (moment.machine.conclude verdict).gas.isOverdrawn = true := overdrawn
      rw [Machine.gas_conclude] at debt
      exact absurd ⟨held, debt⟩ (before verdict)
    | steps machine was running stepped =>
      -- a machine that still ran had gas, or this moment would have had none either
      have had : moment.machine.gas.isOverdrawn = false := by
        by_contra overdrawnBefore
        rw [ih was (Bool.not_eq_false _ ▸ overdrawnBefore)] at running
        cases running
      cases stepped with
      | stays stopped => exact absurd running stopped
      | undecodable => exact absurd (had.symm.trans overdrawn) (by simp)
      | unaffordable => rfl
      | executes instruction next _ _ _ affordable executed =>
        have left : machine.gas.isOverdrawn = true := overdrawn
        rw [executed.gas_eq] at left
        exact absurd (affordable.symm.trans left) (by simp)

private theorem moment_of_debt {n : Nat} {verdict : Option HostVerdict}
    (debt : (dispatcher.moments machine n).LeavesDebt verdict) :
    dispatcher.moments machine (n + 1) = Execution.moment
      ⟨(dispatcher.moments machine n).machine.conclude verdict, (dispatcher.moments machine n).reports⟩ := by
  rw [moments_succ]
  simp [tick, debt.ended, HostProgram.ended?]

private theorem Ends.machine_of_debt {dispatcher : Dispatcher ε} {last : Execution ε}
    (ends : dispatcher.Ends machine last)
    {n : Nat} {verdict : Option HostVerdict} (debt : (dispatcher.moments machine n).LeavesDebt verdict) :
    last.machine = ((dispatcher.moments machine n).machine.conclude verdict).step := by
  have concluded := dispatcher.moment_of_debt debt
  cases verdict with
  | some verdict =>
    have atEnd := ends.moment_eq (n := n + 1) (by rw [concluded]; rfl) (by rw [concluded]; cases verdict <;> rfl)
    have same : (dispatcher.moments machine n).machine.conclude (some verdict) = last.machine :=
      congrArg (fun moment => moment.machine) (concluded.symm.trans atEnd)
    rw [← same]
    cases verdict <;> rfl
  | none =>
    obtain ⟨index, pending⟩ := dispatcher.pending_of_handler debt.ended
    have goesOn := Machine.conclude_none pending
    have stepped : dispatcher.moments machine (n + 2) = Execution.moment
        ⟨((dispatcher.moments machine n).machine.conclude none).step, (dispatcher.moments machine n).reports⟩ := by
      rw [moments_succ, concluded, goesOn]
      rfl
    have ended : ((dispatcher.moments machine n).machine.conclude none).step.status.isTerminal = true := by
      rw [goesOn]
      exact ((dispatcher.moments machine n).machine.stop .continuing).terminal_of_overdrawn rfl debt.overdrawn
    have atEnd := ends.moment_eq (n := n + 2) (by rw [stepped]; rfl) (by rw [stepped]; exact ended)
    exact congrArg (fun moment => moment.machine) (atEnd.symm.trans stepped)

end Dispatcher

namespace Machine

theorem outcome_eq_outOfGas_iff (machine : Machine) : machine.result.outcome = .outOfGas ↔ machine.status = .outOfGas :=
  ⟨status_of_outcome, fun status => by simp [result, status]⟩

private theorem outOfGas_of_debt_iff {machine : Machine} {index : UInt32} (pending : machine.status = .hostCall index)
    (overdrawn : machine.gas.isOverdrawn = true) (verdict : Option HostVerdict) :
    (machine.conclude verdict).step.status = .outOfGas ↔
      verdict = none ∧ ∃ found, decode machine.program machine.pc = .ok found := by
  cases verdict with
  | some verdict => cases verdict <;> simp [conclude, stop, step]
  | none =>
    have goesOn := conclude_none pending
    rw [goesOn]
    rcases (machine.stop .continuing).step_steps.of_overdrawn rfl overdrawn with
      ⟨error, failed, ends⟩ | ⟨found, decoded, ends⟩
    · have nothing : decode machine.program machine.pc = .error error := failed
      rw [ends]
      simp [stop, nothing]
    · have something : decode machine.program machine.pc = .ok found := decoded
      rw [ends]
      simp [stop, something]

end Machine

namespace Dispatcher

variable {ε : Type} (dispatcher : Dispatcher ε)

/-- What an overdrawn counter means for an execution. From then on no instruction takes effect: the next one that is
due ends the execution and leaves registers, memory and program counter alone. The execution ends for want of gas
exactly if every handler that leaves the counter overdrawn asks for no end and leaves the machine at an instruction;
with handlers that leave no debt it always does. -/
theorem overdrawn_execution_runs_out_unless_debt_is_left (machine : Machine) (program : Array UInt8) (pc : UInt32)
    (gas : UInt64) (registers : Option Registers) (memory : Option Memory) :
    let started := machine.reset program pc gas registers memory
    let now := dispatcher.moments started
    (∀ n m, n ≤ m → (now n).machine.gas.isOverdrawn = true → (now m).handler = none →
      (now m).machine.status = .continuing →
        (now (m + 1)).machine.status.isTerminal = true ∧ (now (m + 1)).machine.registers = (now m).machine.registers ∧
        (now (m + 1)).machine.memory = (now m).machine.memory ∧ (now (m + 1)).machine.pc = (now m).machine.pc) ∧
    (∀ last, dispatcher.Ends started last → last.machine.gas.isOverdrawn = true →
      (last.machine.result.outcome = .outOfGas ↔
        ∀ n verdict, (now n).LeavesDebt verdict →
          verdict = none ∧ ∃ found, decode (now n).machine.program (now n).machine.pc = .ok found)) ∧
    ∀ last, dispatcher.run? started = some last → dispatcher.Ends started last := by
  intro started now
  have solvent : started.gas.isOverdrawn = false := GasCounter.isOverdrawn_new gas
  refine ⟨fun n m le overdrawn free running => ?_, fun last ends overdrawn => ?_, fun _ => dispatcher.ends_of_run?⟩
  · have still := dispatcher.overdrawn_of_le le overdrawn
    have next : now (m + 1) = Execution.moment ⟨(now m).machine.step, (now m).reports⟩ := by
      rw [show now (m + 1) = dispatcher.tick (now m) from dispatcher.moments_succ started m]
      exact dispatcher.tick_of_running free running
    rw [next]
    change (now m).machine.step.status.isTerminal = true ∧ (now m).machine.step.registers = _ ∧
      (now m).machine.step.memory = _ ∧ (now m).machine.step.pc = _
    rcases (now m).machine.step_steps.of_overdrawn running still with ⟨error, -, same⟩ | ⟨found, -, same⟩
    · rw [same]
      exact ⟨rfl, rfl, rfl, rfl⟩
    · rw [same]
      exact ⟨rfl, rfl, rfl, rfl⟩
  · have indebted : ∀ {n verdict}, (now n).LeavesDebt verdict →
        (last.machine.status = .outOfGas ↔
          verdict = none ∧ ∃ found, decode (now n).machine.program (now n).machine.pc = .ok found) := by
      intro n verdict debt
      obtain ⟨index, pending⟩ := dispatcher.pending_of_handler debt.ended
      rw [ends.machine_of_debt debt]
      exact Machine.outOfGas_of_debt_iff pending debt.overdrawn verdict
    rw [Machine.outcome_eq_outOfGas_iff]
    constructor
    · intro status n verdict debt
      exact (indebted debt).mp status
    · intro goOn
      by_cases someDebt : ∃ k verdict, (now k).LeavesDebt verdict
      · obtain ⟨k, verdict, debt⟩ := someDebt
        exact (indebted debt).mpr (goOn k verdict debt)
      · have noDebt : ∀ k verdict, ¬ (now k).LeavesDebt verdict := fun k verdict debt => someDebt ⟨k, verdict, debt⟩
        obtain ⟨n, reached⟩ := ends.exists_moment
        have status := dispatcher.outOfGas_of_overdrawn (n := n) solvent noDebt (by rw [reached]; rfl)
          (by rw [reached]; exact overdrawn)
        rw [reached] at status
        exact status

/-- The greedy call leaves debt and lets the machine go on, and so the next instruction ends the execution for want of
gas, without effect. -/
theorem overdrawn_execution_runs_out_after_greedy_call :
    let started := (Machine.idle 2).reset #[10, 7, 0, 0, 0, 1] 0 50 none none
    let now := greedy.moments started
    ((now (4 + 1)).machine.status.isTerminal = true ∧ (now (4 + 1)).machine.pc = (now 4).machine.pc) ∧
      ∃ last, greedy.run? started = some last ∧ last.machine.gas.isOverdrawn = true ∧
        last.machine.result.outcome = .outOfGas ∧ (now 4).machine.pc = 5 ∧
        (now 3).LeavesDebt none ∧ ∃ found, decode (now 3).machine.program (now 3).machine.pc = .ok found := by
  dsimp only
  obtain ⟨stops, ending, ends⟩ :=
    overdrawn_execution_runs_out_unless_debt_is_left greedy (Machine.idle 2) #[10, 7, 0, 0, 0, 1] 0 50 none none
  obtain ⟨terminal, -, -, pc⟩ := stops 3 4 (by decide) (by decide +kernel) rfl (by decide +kernel)
  have outcome : (greedy.run? ((Machine.idle 2).reset #[10, 7, 0, 0, 0, 1] 0 50 none none)).map
      (fun last => (last.machine.result.outcome, last.machine.gas.isOverdrawn)) = some (.outOfGas, true) := by
    decide +kernel
  obtain ⟨last, ran, ended⟩ := Option.map_eq_some_iff.mp outcome
  obtain ⟨exhausted, overdrawn⟩ := Prod.mk.inj ended
  have goesOn := (ending last (ends last ran) overdrawn).mp exhausted 3 none ⟨rfl, by decide +kernel⟩
  exact ⟨⟨terminal, pc⟩, last, ran, overdrawn, exhausted, by decide +kernel, ⟨rfl, by decide +kernel⟩, goesOn.2⟩

/-- A host call that charges more than a program has and then asks for the end. -/
def careless : Dispatcher Unit :=
  ⟨⟨[(7, ⟨fun _ => .fixed 0, .chargeGas 100 fun _ => .done (some .halt)⟩)], by decide⟩, 0⟩

/-- An execution that its host call has overdrawn halts, as if it had paid. One that its host call leaves at the end of
the code panics. -/
theorem overdrawn_execution_halts_or_panics :
    let code := (#[10, 7, 0, 0, 0] : Array UInt8)
    let started := (Machine.idle 1).reset code 0 50 none none
    (∃ last, careless.run? started = some last ∧ last.machine.gas.balance < 0 ∧
      last.machine.result.outcome = .halt #[]) ∧
    ∃ last, greedy.run? started = some last ∧ last.machine.gas.balance < 0 ∧
      last.machine.result.outcome = .panic := by
  intro code started
  have halted : (careless.run? started).map (fun last => (last.machine.gas.balance, last.machine.result.outcome)) =
      some (-51, .halt #[]) := by decide +kernel
  have panicked : (greedy.run? started).map (fun last => (last.machine.gas.balance, last.machine.result.outcome)) =
      some (-54, .panic) := by decide +kernel
  obtain ⟨first, ran, ended⟩ := Option.map_eq_some_iff.mp halted
  obtain ⟨second, ran', ended'⟩ := Option.map_eq_some_iff.mp panicked
  obtain ⟨balance, outcome⟩ := Prod.mk.inj ended
  obtain ⟨balance', outcome'⟩ := Prod.mk.inj ended'
  exact ⟨⟨first, ran, by omega, outcome⟩, second, ran', by omega, outcome'⟩

end Dispatcher

end MeteredVm
