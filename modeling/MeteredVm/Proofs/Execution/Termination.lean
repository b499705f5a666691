import MeteredVm.Proofs.Execution.Spending

/-!
Metered executions end. An instruction that is paid for uses up gas, a host call uses up none but lets an instruction
follow, and so an execution that pays for its instructions needs no more steps than it is allowed.
-/

set_option autoImplicit false
set_option relaxedAutoImplicit false

namespace MeteredVm

theorem iterateUntil?_isSome {σ : Type} {finished : σ → Bool} {next : σ → σ} (kept : σ → Prop) (need : σ → Nat)
    (keeps : ∀ state, kept state → kept (next state))
    (uses : ∀ state, kept state → finished state = false → need (next state) < need state) (fuel : Nat) :
    ∀ state, kept state → need state ≤ fuel → (iterateUntil? finished next fuel state).isSome = true := by
  induction fuel with
  | zero =>
    intro state holds enough
    cases status : finished state with
    | true => simp [iterateUntil?, status]
    | false =>
      have less := uses state holds status
      omega
  | succ fuel ih =>
    intro state holds enough
    cases status : finished state with
    | true => simp [iterateUntil?, status]
    | false =>
      have less := uses state holds status
      simp only [iterateUntil?, status, Bool.false_eq_true, if_false]
      exact ih (next state) (keeps state holds) (by omega)

namespace GasCounter

theorem Charged.remaining_le {before after : GasCounter} {due : Nat} (charged : before.Charged due after) :
    after.remaining ≤ before.remaining := by
  cases charged with
  | nothing => exact Nat.le_refl _
  | amount amount =>
    simp only [remaining, deduct, minBalance]
    omega

theorem remaining_deduct {counter : GasCounter} {amount : UInt32}
    (affordable : (counter.deduct amount.toUInt64).isOverdrawn = false) :
    (counter.deduct amount.toUInt64).remaining + amount.toNat = counter.remaining := by
  have narrow := amount.toNat_lt
  have left : 0 ≤ (counter.deduct amount.toUInt64).balance := Int.not_lt.mp (of_decide_eq_false affordable)
  simp only [remaining, deduct, minBalance, maxGas, UInt32.toNat_toUInt64] at left ⊢
  omega

end GasCounter

private theorem HostProgram.remaining_run_le {ε α : Type} (program : HostProgram ε α) :
    ∀ view : GuestView, (program.run view).2.1.gas.remaining ≤ view.gas.remaining := by
  induction program using HostProgram.next_induction with
  | ended value =>
    intro view
    exact Nat.le_refl _
  | asks program asking ih =>
    intro view
    rw [program.run_next]
    exact Nat.le_trans (ih view _) (program.charged_next view).remaining_le

namespace Machine

/-- A bound on the number of instructions and host calls that a machine will still take part in. -/
def need (machine : Machine) : Nat :=
  match machine.status with
  | .continuing => 2 * (machine.gas.remaining / machine.instructionGas.toNat) + 1
  | .hostCall _ => 2 * (machine.gas.remaining / machine.instructionGas.toNat) + 2
  | .halt | .panic | .outOfGas => 0

private theorem need_le (machine : Machine) :
    machine.need ≤ 2 * (machine.gas.remaining / machine.instructionGas.toNat) + 2 := by
  unfold need
  split <;> omega

private theorem need_le_of_answered {machine : Machine} (answered : machine.status.pendingCall? = none) :
    machine.need ≤ 2 * (machine.gas.remaining / machine.instructionGas.toNat) + 1 := by
  unfold need
  cases status : machine.status with
  | hostCall index => simp [status, Status.pendingCall?] at answered
  | continuing => exact Nat.le_refl _
  | halt => exact Nat.zero_le _
  | panic => exact Nat.zero_le _
  | outOfGas => exact Nat.zero_le _

theorem Executes.instructionGas_eq {machine after : Machine} {instruction : Instruction Reg}
    (h : machine.Executes instruction after) : after.instructionGas = machine.instructionGas := by
  cases h <;> rfl

theorem Steps.instructionGas_eq {machine after : Machine} (h : machine.Steps after) :
    after.instructionGas = machine.instructionGas := by
  cases h with
  | stays => rfl
  | undecodable => rfl
  | unaffordable => rfl
  | executes instruction next after running decoded affordable executed => exact executed.instructionGas_eq

private theorem Steps.need_lt {machine after : Machine} (h : machine.Steps after)
    (running : machine.status = .continuing) (metered : machine.instructionGas ≠ 0) : after.need < machine.need := by
  have now : machine.need = 2 * (machine.gas.remaining / machine.instructionGas.toNat) + 1 := by
    rw [need, running]
  have price : 0 < machine.instructionGas.toNat := by
    rw [Nat.pos_iff_ne_zero, ne_eq, ← UInt32.toNat_zero, UInt32.toNat_inj]
    exact metered
  cases h with
  | stays stopped => exact absurd running stopped
  | undecodable =>
    rw [now]
    exact Nat.succ_pos _
  | unaffordable =>
    rw [now]
    exact Nat.succ_pos _
  | executes instruction next after _ _ affordable executed =>
    have paid := GasCounter.remaining_deduct affordable
    have later := after.need_le
    rw [executed.gas_eq, executed.instructionGas_eq] at later
    have once : machine.gas.remaining / machine.instructionGas.toNat =
        (machine.gas.deduct machine.instructionGas.toUInt64).remaining / machine.instructionGas.toNat + 1 := by
      rw [← paid, Nat.add_div_right _ price]
    rw [now, once]
    change after.need ≤ 2 * ((machine.gas.deduct machine.instructionGas.toUInt64).remaining /
      machine.instructionGas.toNat) + 2 at later
    omega

/-- What serving a host call leaves of a machine: it no longer waits for it, and its gas did not grow. -/
structure Answered (before after : Machine) : Prop where
  answered : after.status.pendingCall? = none
  remaining_le : after.gas.remaining ≤ before.gas.remaining
  instructionGas_eq : after.instructionGas = before.instructionGas

theorem answered_conclude (machine : Machine) (verdict : Option HostVerdict) :
    machine.Answered (machine.conclude verdict) where
  answered := by
    unfold conclude resume
    split
    · rfl
    · rfl
    · cases status : machine.status with
      | hostCall index => rfl
      | continuing => simp [status, Status.pendingCall?]
      | halt => simp [status, Status.pendingCall?]
      | panic => simp [status, Status.pendingCall?]
      | outOfGas => simp [status, Status.pendingCall?]
  remaining_le := by rw [gas_conclude]
  instructionGas_eq := by
    unfold conclude resume
    split
    · rfl
    · rfl
    · split <;> rfl

private theorem Answered.of_charge {before paid after : Machine} (answered : paid.Answered after)
    (less : paid.gas.remaining ≤ before.gas.remaining) (same : paid.instructionGas = before.instructionGas) :
    before.Answered after where
  answered := answered.answered
  remaining_le := Nat.le_trans answered.remaining_le less
  instructionGas_eq := answered.instructionGas_eq.trans same

end Machine

namespace Dispatcher

variable {ε : Type} (dispatcher : Dispatcher ε)

theorem dispatch_answered (index : UInt32) (execution : Execution ε) :
    execution.machine.Answered (dispatcher.dispatch index execution).machine := by
  have less : ∀ amount, (execution.machine.pay amount).gas.remaining ≤ execution.machine.gas.remaining :=
    fun amount => (GasCounter.Charged.amount amount).remaining_le
  have overdrawn : ∀ amount, execution.machine.Answered ((execution.machine.pay amount).stop .outOfGas) :=
    fun amount => ⟨rfl, less amount, rfl⟩
  unfold dispatch
  cases dispatcher.registry.get? index with
  | none =>
    simp only [refuse]
    cases paid : (execution.machine.pay (GasCost.fixed dispatcher.unknownCallGas).amount).gas.isOverdrawn with
    | true =>
      rw [Machine.chargeGas_of_overdrawn paid]
      exact overdrawn _
    | false =>
      rw [Machine.chargeGas_of_affordable paid]
      exact (Machine.answered_conclude _ none).of_charge (less _) rfl
  | some handler =>
    simp only [serve]
    cases paid : (execution.machine.pay (handler.cost execution.machine.registers).amount).gas.isOverdrawn with
    | true =>
      rw [Machine.chargeGas_of_overdrawn paid]
      exact overdrawn _
    | false =>
      rw [Machine.chargeGas_of_affordable paid]
      have paidLess := less (handler.cost execution.machine.registers).amount
      refine (Machine.answered_conclude _ _).of_charge (Nat.le_trans ?_ paidLess) rfl
      exact handler.execute.remaining_run_le _

theorem instructionGas_advance (execution : Execution ε) :
    (dispatcher.advance execution).machine.instructionGas = execution.machine.instructionGas := by
  unfold advance
  cases execution.machine.status with
  | continuing => exact execution.machine.step_steps.instructionGas_eq
  | hostCall index => exact (dispatcher.dispatch_answered index execution).instructionGas_eq
  | halt => rfl
  | panic => rfl
  | outOfGas => rfl

private theorem need_advance {execution : Execution ε} (metered : execution.machine.instructionGas ≠ 0)
    (unfinished : isFinished execution = false) :
    (dispatcher.advance execution).machine.need < execution.machine.need := by
  cases status : execution.machine.status with
  | continuing =>
    simp only [advance, status]
    exact execution.machine.step_steps.need_lt status metered
  | hostCall index =>
    -- a host call may cost nothing: it is the other status it leaves, not the gas, that brings the need down
    have answered := dispatcher.dispatch_answered index execution
    have later := Machine.need_le_of_answered answered.answered
    rw [answered.instructionGas_eq] at later
    have less : (dispatcher.dispatch index execution).machine.gas.remaining / execution.machine.instructionGas.toNat ≤
        execution.machine.gas.remaining / execution.machine.instructionGas.toNat :=
      Nat.div_le_div_right answered.remaining_le
    have now : execution.machine.need =
        2 * (execution.machine.gas.remaining / execution.machine.instructionGas.toNat) + 2 := by
      rw [Machine.need, status]
    simp only [advance, status]
    omega
  | halt => simp [isFinished, status, Status.isTerminal] at unfinished
  | panic => simp [isFinished, status, Status.isTerminal] at unfinished
  | outOfGas => simp [isFinished, status, Status.isTerminal] at unfinished

theorem run?_isSome {machine : Machine} (metered : machine.instructionGas ≠ 0) :
    (dispatcher.run? machine).isSome = true := by
  refine iterateUntil?_isSome (fun execution : Execution ε => execution.machine.instructionGas ≠ 0)
    (fun execution => execution.machine.need) ?_ ?_ _ _ metered ?_
  · intro execution kept
    rw [instructionGas_advance]
    exact kept
  · intro execution kept unfinished
    exact dispatcher.need_advance kept unfinished
  · have enough := machine.need_le
    rw [allowance, Machine.stepAllowance, if_neg metered]
    change machine.need ≤ _
    omega

theorem instructionGas_of_run? {dispatcher : Dispatcher ε} {machine : Machine} {execution : Execution ε}
    (ran : dispatcher.run? machine = some execution) :
    execution.machine.instructionGas = machine.instructionGas := by
  obtain ⟨-, k, rfl⟩ := iterateUntil?_eq_some ran
  clear ran
  induction k with
  | zero => rfl
  | succ k ih =>
    rw [Function.iterate_succ_apply', instructionGas_advance]
    exact ih

end Dispatcher

end MeteredVm
