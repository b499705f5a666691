import MeteredVm.Proofs.Batch.Runs
import MeteredVm.Proofs.Execution.Counting

/-!
Gas as the bound of what the runs of a batch can do. Each execution that a runner starts begins with the gas that was
asked for, so if the configuration prices instructions, it executes no more of them than that. A configuration without
such a price is accepted too, and then nothing bounds an execution.
-/

set_option autoImplicit false
set_option relaxedAutoImplicit false

namespace MeteredVm

namespace Dispatcher

variable {ε : Type} (dispatcher : Dispatcher ε) {machine : Machine}

private theorem executedCount_le (metered : machine.instructionGas ≠ 0) (n : Nat) :
    dispatcher.executedCount machine n ≤ machine.gas.remaining := by
  have paid := dispatcher.executedCount_mul_le machine n
  have price : 1 ≤ machine.instructionGas.toNat := Machine.instructionGas_pos metered
  exact Nat.le_trans (Nat.le_mul_of_pos_right _ price) paid

variable {dispatcher}

private theorem executedCount_of_fixed (stuck : dispatcher.advance ⟨machine, #[]⟩ = ⟨machine, #[]⟩)
    (executes : machine.executesNext = true) (n : Nat) : dispatcher.executedCount machine n = n := by
  induction n with
  | zero => rfl
  | succ n ih =>
    have here : dispatcher.advance^[n] ⟨machine, #[]⟩ = ⟨machine, #[]⟩ := Function.iterate_fixed stuck n
    rw [executedCount, tally_succ, ← executedCount, ih, here, if_pos executes]

private theorem run?_of_fixed (stuck : dispatcher.advance ⟨machine, #[]⟩ = ⟨machine, #[]⟩)
    (running : machine.status = .continuing) : dispatcher.run? machine = none := by
  rw [Option.eq_none_iff_forall_ne_some]
  intro last ran
  obtain ⟨finished, k, reached⟩ := dispatcher.ends_of_run? ran
  rw [Function.iterate_fixed stuck] at reached
  subst reached
  simp [isFinished, running, Status.isTerminal] at finished

end Dispatcher

namespace Node

variable {program input : Array UInt8} {gas : Option Nat} {job : Job}

private theorem Batch.Shared.eq_prepared {ε : Type} {batch : Batch ε} {config : VmConfig} {alone : Execution ε}
    {runs run : Nat} {machine : Machine} (shared : batch.Shared config job alone runs)
    (started : batch.phases[run]? = some (.loaded machine)) : machine = job.prepared config := by
  cases shared.agrees run _ started with
  | loaded => rfl

namespace Runner

private theorem remaining_of_job {config : VmConfig} (accepted : Runner.job config program input gas = .ok job) :
    (job.prepared config).gas.remaining = gas.getD config.defaultGas := by
  obtain ⟨memory, -, prepared⟩ := prepared_of_job accepted
  have within : gas.getD config.defaultGas ≤ GasCounter.maxGas := by
    by_contra high
    unfold Runner.job at accepted
    simp only [Nat.not_le.mp high, if_true] at accepted
    split at accepted
    · cases accepted
    · split at accepted <;> cases accepted
  rw [prepared]
  unfold GasCounter.maxGas at within
  have fits : gas.getD config.defaultGas < 18446744073709551616 := by omega
  have counted : (UInt64.ofNat (gas.getD config.defaultGas)).toNat = gas.getD config.defaultGas := by
    rw [UInt64.toNat_ofNat']
    exact Nat.mod_eq_of_lt fits
  simp only [Machine.reset, GasCounter.remaining, GasCounter.new, GasCounter.maxGas, counted, Int.toNat_natCast]
  exact Nat.min_eq_left within

private theorem atRest_of_ofConfig {config : VmConfig} {runner : Runner} (built : Runner.ofConfig config = .ok runner) :
    runner.config = config ∧ config.validate = .ok () ∧ runner.pool.AtRest config := by
  unfold Runner.ofConfig at built
  cases made : Pool.ofConfig config with
  | error error =>
    rw [made] at built
    cases error <;> cases built
  | ok pool =>
    rw [made] at built
    obtain rfl := Except.ok.inj built
    refine ⟨rfl, ?_, Pool.AtRest.of_ofConfig made⟩
    cases valid : config.validate with
    | error error => simp [Pool.ofConfig, valid] at made
    | ok checked => rfl

/-- Gas bounds what a runner lets a program do, if its configuration prices instructions. Whatever the machines of its
pool did before and whatever turns the runs took: every execution that was started comes to an end, and executes no more
instructions than the gas that was asked for. So the runner gets any number of runs done. -/
theorem gas_bounds_runs_unless_unpriced {runner : Runner} (valid : runner.config.validate = .ok ())
    (metered : 1 ≤ runner.config.instructionGas) (rest : runner.pool.AtRest runner.config)
    (accepted : Runner.job runner.config program input gas = .ok job) :
    (∀ (runs : Nat) (order : List Nat) (run : Nat) (started : Machine),
      ((Batch.start runner.pool runs).turns runner.dispatcher job order).phases[run]? = some (Phase.loaded started) →
        (runner.dispatcher.run? started).isSome = true ∧
          ∀ n, runner.dispatcher.executedCount started n ≤ gas.getD runner.config.defaultGas) ∧
    ∀ runs ≤ maxRuns, ∃ batch later, runner.runMany program input gas runs = (.ok batch, later) ∧
      batch.results.length = runs ∧ later.config = runner.config ∧ later.pool.AtRest runner.config := by
  have priced : (job.prepared runner.config).instructionGas ≠ 0 := by
    intro free
    change runner.config.instructionGas = 0 at free
    rw [free] at metered
    exact absurd metered (by decide)
  have ends := runner.dispatcher.run?_isSome priced
  obtain ⟨alone, ended⟩ := Option.isSome_iff_exists.mp ends
  constructor
  · intro runs order run started held
    have shared :
        ((Batch.start runner.pool runs).turns runner.dispatcher job order).Shared runner.config job alone runs :=
      (Batch.shared_start rest runs).turns ended order
    obtain rfl := shared.eq_prepared held
    refine ⟨ends, fun n => ?_⟩
    rw [← remaining_of_job accepted]
    exact runner.dispatcher.executedCount_le priced n
  · intro runs few
    obtain ⟨later, ran, config, atRest⟩ := runMany_eq (poolCapacity_pos valid) accepted few rest ended
    exact ⟨_, later, ran, List.length_replicate, config, atRest⟩

/-- A program that jumps to itself is run twice on the machine of a new pool. -/
theorem gas_bounds_runs_unless_unpriced_of_loop :
    ∃ runner, Runner.ofConfig { VmConfig.standard with poolCapacity := 1 } = .ok runner ∧
      1 ≤ runner.config.instructionGas ∧ ∃ job,
        Runner.job runner.config #[40, 0, 0, 0, 0] #[] (some 5) = .ok job ∧
        (∃ started, ((Batch.start runner.pool 2).turns runner.dispatcher job [0]).phases[0]? = some (.loaded started) ∧
          ∀ n, runner.dispatcher.executedCount started n ≤ 5) ∧
        ∃ batch later, runner.runMany #[40, 0, 0, 0, 0] #[] (some 5) 2 = (.ok batch, later) ∧
          batch.results.length = 2 := by
  let runner : Runner := ⟨{ VmConfig.standard with poolCapacity := 1 }, ⟨1, [Machine.idle 1], 0, [], []⟩⟩
  have built : Runner.ofConfig { VmConfig.standard with poolCapacity := 1 } = .ok runner := rfl
  obtain ⟨-, valid, rest⟩ := atRest_of_ofConfig built
  have metered : 1 ≤ runner.config.instructionGas := by decide
  have isOk : (Runner.job runner.config #[40, 0, 0, 0, 0] #[] (some 5)).isOk = true := by decide +kernel
  cases accepted : Runner.job runner.config #[40, 0, 0, 0, 0] #[] (some 5) with
  | error error =>
    rw [accepted] at isOk
    cases isOk
  | ok job =>
    obtain ⟨started, many⟩ := gas_bounds_runs_unless_unpriced valid metered rest accepted
    obtain ⟨batch, later, ran, two, -⟩ := many 2 (by decide)
    have first : ((Batch.start runner.pool 2).turns runner.dispatcher job [0]).phases[0]? =
        some (.loaded (job.prepared runner.config)) := rfl
    exact ⟨runner, built, metered, job, accepted, ⟨_, first, (started 2 [0] 0 _ first).2⟩, batch, later, ran, two⟩

/-- The configuration that is standard but for its instructions, which cost nothing. -/
def unpriced : VmConfig := { VmConfig.standard with instructionGas := 0 }

/-- Nothing is wrong with a configuration without a price for instructions. A program that was given gas for one
instruction then executes three, and one that jumps to itself executes any number of them and never ends. -/
theorem unpriced_runs_are_unbounded :
    unpriced.validate = .ok () ∧ ∃ runner, Runner.ofConfig unpriced = .ok runner ∧
      (∃ job, Runner.job unpriced #[1, 1, 50, 0, 0, 0, 0, 0] #[] (some 1) = .ok job ∧
        runner.dispatcher.executedCount (job.prepared unpriced) 3 = 3) ∧
      ∃ job, Runner.job unpriced #[40, 0, 0, 0, 0] #[] (some 1) = .ok job ∧
        (∀ n, runner.dispatcher.executedCount (job.prepared unpriced) n = n) ∧
        runner.dispatcher.run? (job.prepared unpriced) = none := by
  let runner : Runner := ⟨unpriced, ⟨8, List.replicate 8 (Machine.idle 0), 0, [], []⟩⟩
  refine ⟨rfl, runner, rfl, ?_, ?_⟩
  · have counted : (Runner.job unpriced #[1, 1, 50, 0, 0, 0, 0, 0] #[] (some 1)).toOption.map (fun job =>
        runner.dispatcher.executedCount (job.prepared unpriced) 3) = some 3 := by
      decide +kernel
    cases accepted : Runner.job unpriced #[1, 1, 50, 0, 0, 0, 0, 0] #[] (some 1) with
    | error error =>
      rw [accepted] at counted
      cases counted
    | ok job =>
      rw [accepted] at counted
      exact ⟨job, rfl, Option.some.inj counted⟩
  · have isOk : (Runner.job unpriced #[40, 0, 0, 0, 0] #[] (some 1)).isOk = true := by decide +kernel
    cases accepted : Runner.job unpriced #[40, 0, 0, 0, 0] #[] (some 1) with
    | error error =>
      rw [accepted] at isOk
      cases isOk
    | ok job =>
      obtain ⟨memory, -, prepared⟩ := prepared_of_job accepted
      have stuck : runner.dispatcher.advance ⟨job.prepared unpriced, #[]⟩ = ⟨job.prepared unpriced, #[]⟩ := by
        rw [prepared]
        rfl
      have executes : (job.prepared unpriced).executesNext = true := by
        rw [prepared]
        rfl
      exact ⟨job, rfl, Dispatcher.executedCount_of_fixed stuck executes, Dispatcher.run?_of_fixed stuck rfl⟩

end Runner

end Node

end MeteredVm
