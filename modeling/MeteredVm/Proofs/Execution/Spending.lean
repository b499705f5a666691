import MeteredVm.Proofs.Execution.Moments
import Mathlib.Algebra.Order.BigOperators.Group.Finset

/-!
Where the gas of an execution goes. Between two moments at most one amount falls due: the price of an instruction that
was decoded, the price of a host call, or what a handler charges. The main statement is that gas used is at every moment
the sum of what fell due so far, as far as the allotment goes.
-/

set_option autoImplicit false
set_option relaxedAutoImplicit false

namespace MeteredVm

namespace GasCounter

/-- A counter that was given an allotment and has been charged amounts with a given sum. -/
structure Accounts (counter : GasCounter) (allotment spent : Nat) : Prop where
  initial : counter.initial = allotment
  capped : allotment ≤ maxGas
  bounded : counter.balance ≤ allotment
  missing : min (allotment - counter.balance) allotment = min (spent : Int) allotment

variable {counter : GasCounter} {allotment spent : Nat}

private theorem accounts_new (gas : UInt64) : (new gas).Accounts (min gas.toNat maxGas) 0 := by
  refine ⟨rfl, Nat.min_le_right _ _, Int.le_refl _, ?_⟩
  simp only [new]
  omega

/-- Saturation at the least balance and the cap on a single amount hide nothing: both only matter once the allotment is
used up. -/
private theorem Accounts.deduct (h : counter.Accounts allotment spent) (amount : UInt64) :
    (counter.deduct amount).Accounts allotment (spent + amount.toNat) := by
  have capped := h.capped
  have bounded := h.bounded
  have missing := h.missing
  have wide := amount.toNat_lt
  unfold maxGas at capped
  refine ⟨h.initial, h.capped, ?_, ?_⟩
  · simp only [GasCounter.deduct, minBalance]
    omega
  · simp only [GasCounter.deduct, minBalance, maxGas]
    omega

private theorem Accounts.used_eq (h : counter.Accounts allotment spent) : counter.used = min allotment spent := by
  have bounded := h.bounded
  have missing := h.missing
  rw [used, h.initial]
  omega

private theorem Accounts.remaining_add_used (h : counter.Accounts allotment spent) :
    counter.remaining + counter.used = allotment := by
  have bounded := h.bounded
  rw [remaining, used, h.initial]
  omega

private theorem Accounts.used_eq_of_overdrawn (h : counter.Accounts allotment spent)
    (overdrawn : counter.isOverdrawn = true) :
    counter.used = allotment := by
  have negative : counter.balance < 0 := of_decide_eq_true overdrawn
  rw [used, h.initial]
  omega

theorem isOverdrawn_deduct {amount : UInt64} (h : counter.isOverdrawn = true) :
    (counter.deduct amount).isOverdrawn = true := by
  have negative : counter.balance < 0 := of_decide_eq_true h
  refine decide_eq_true ?_
  simp only [deduct, minBalance]
  omega

end GasCounter

/-- What a handler charges with its first request. -/
def HostProgram.due {ε α : Type} : HostProgram ε α → Nat
  | .chargeGas amount _ => amount.toNat
  | _ => 0

/-- What falls due with a step: the price of an instruction, and nothing if there is none. -/
def Machine.due (machine : Machine) : Nat :=
  match decode machine.program machine.pc with
  | .ok _ => machine.instructionGas.toNat
  | .error _ => 0

namespace Dispatcher

variable {ε : Type}

/-- What falls due between a moment and the next. -/
def due (dispatcher : Dispatcher ε) (moment : Moment ε) : Nat :=
  match moment.handler with
  | some program => program.due
  | none =>
    match moment.machine.status with
    | .continuing => moment.machine.due
    | .hostCall index => (dispatcher.price index moment.machine.registers).amount.toNat
    | .halt | .panic | .outOfGas => 0

/-- Everything that fell due before the moment with a number. -/
def spent (dispatcher : Dispatcher ε) (machine : Machine) (n : Nat) : Nat :=
  ∑ k ∈ Finset.range n, dispatcher.due (dispatcher.moments machine k)

end Dispatcher

/-- The counter was left alone while nothing was due, or exactly what was due was deducted. -/
inductive GasCounter.Charged (before : GasCounter) : Nat → GasCounter → Prop where
  | nothing : Charged before 0 before
  | amount (amount : UInt64) : Charged before amount.toNat (before.deduct amount)

private theorem GasCounter.Accounts.charged {before after : GasCounter} {allotment spent due : Nat}
    (h : before.Accounts allotment spent) (charged : before.Charged due after) :
    after.Accounts allotment (spent + due) := by
  cases charged with
  | nothing => exact h
  | amount amount => exact h.deduct amount

theorem GasCounter.Charged.isOverdrawn {before after : GasCounter} {due : Nat} (charged : before.Charged due after)
    (h : before.isOverdrawn = true) : after.isOverdrawn = true := by
  cases charged with
  | nothing => exact h
  | amount amount => exact isOverdrawn_deduct h

namespace Machine

theorem Executes.gas_eq {machine after : Machine} {instruction : Instruction Reg}
    (h : machine.Executes instruction after) : after.gas = machine.gas := by
  cases h <;> rfl

theorem Executes.status_ne {machine after : Machine} {instruction : Instruction Reg}
    (h : machine.Executes instruction after) (running : machine.status = .continuing) : after.status ≠ .outOfGas := by
  cases h with
  | goesOn => simp [running]
  | ends status final => rcases final with rfl | rfl <;> simp [stop]
  | asks => simp
  | stores => simp [running]
  | grows => simp [running]

theorem Steps.charged {machine after : Machine} (h : machine.Steps after) (running : machine.status = .continuing) :
    machine.gas.Charged machine.due after.gas := by
  cases h with
  | stays stopped => exact absurd running stopped
  | undecodable error _ failed =>
    rw [due, failed]
    exact .nothing
  | unaffordable instruction next _ decoded =>
    rw [due, decoded]
    exact .amount machine.instructionGas.toUInt64
  | executes instruction next _ _ decoded _ executed =>
    rw [due, decoded, executed.gas_eq]
    exact .amount machine.instructionGas.toUInt64

theorem Steps.overdrawn {machine after : Machine} (h : machine.Steps after)
    (running : machine.status = .continuing) (ended : after.status = .outOfGas) : after.gas.isOverdrawn = true := by
  cases h with
  | stays stopped => exact absurd running stopped
  | undecodable => exact absurd ended (by simp [stop])
  | unaffordable instruction next _ _ overdrawn => exact overdrawn
  | executes instruction next _ _ _ _ executed => exact absurd ended (executed.status_ne running)

theorem gas_conclude (machine : Machine) (verdict : Option HostVerdict) :
    (machine.conclude verdict).gas = machine.gas := congrArg GuestView.gas (machine.view_conclude verdict)

theorem status_conclude {machine : Machine} {verdict : Option HostVerdict}
    (ended : (machine.conclude verdict).status = .outOfGas) : machine.status = .outOfGas := by
  unfold conclude resume at ended
  split at ended
  · exact absurd ended (by simp [stop])
  · exact absurd ended (by simp [stop])
  · split at ended
    · exact absurd ended (by simp [stop])
    all_goals exact ended

theorem status_of_outcome {machine : Machine} (ended : machine.result.outcome = .outOfGas) :
    machine.status = .outOfGas := by
  unfold result at ended
  cases status : machine.status with
  | outOfGas => rfl
  | _ => simp [status] at ended

end Machine

theorem HostProgram.charged_next {ε α : Type} (program : HostProgram ε α) (view : GuestView) :
    view.gas.Charged program.due (program.next view).2.1.gas := by
  cases program with
  | chargeGas amount rest => exact .amount amount
  | store address payload rest =>
    simp only [next]
    cases Memory.Host.store view.memory address payload.bytes <;> exact .nothing
  | _ => exact .nothing

namespace Dispatcher.Ticks

variable {ε : Type} {dispatcher : Dispatcher ε} {moment after : Moment ε}

theorem charged (h : dispatcher.Ticks moment after) :
    moment.machine.gas.Charged (dispatcher.due moment) after.machine.gas := by
  unfold due
  cases h with
  | rests free ended =>
    rw [free]
    cases status : moment.machine.status with
    | halt => exact .nothing
    | panic => exact .nothing
    | outOfGas => exact .nothing
    | continuing => simp [status, Status.isTerminal] at ended
    | hostCall index => simp [status, Status.isTerminal] at ended
  | steps machine free running stepped =>
    simp only [free, running]
    exact stepped.charged running
  | overdraws index amount free pending due =>
    simp only [free, pending, due]
    exact .amount amount
  | refuses index amount free pending due =>
    simp only [free, pending, due]
    exact .amount amount
  | begins index amount handler free pending due =>
    simp only [free, pending, due]
    exact .amount amount
  | serves program rest view reports held asking served =>
    simp only [held]
    have charged := program.charged_next moment.machine.view
    rw [served] at charged
    exact charged
  | concludes verdict held =>
    simp only [held, HostProgram.due, Execution.moment, Machine.gas_conclude]
    exact .nothing

theorem overdrawn (h : dispatcher.Ticks moment after)
    (before : moment.machine.status = .outOfGas → moment.machine.gas.isOverdrawn = true)
    (ended : after.machine.status = .outOfGas) : after.machine.gas.isOverdrawn = true := by
  have charged := h.charged
  cases h with
  | rests => exact before ended
  | steps machine free running stepped => exact stepped.overdrawn running ended
  | overdraws index amount free pending due overdrawn => exact overdrawn
  | refuses => exact absurd ended (by simp [Execution.moment])
  | begins index amount handler free pending =>
    have same : moment.machine.status = .outOfGas := ended
    rw [pending] at same
    exact absurd same (by simp)
  | serves program rest view reports held asking served => exact charged.isOverdrawn (before ended)
  | concludes verdict held => exact charged.isOverdrawn (before (Machine.status_conclude ended))

end Dispatcher.Ticks

namespace Dispatcher

variable {ε : Type} (dispatcher : Dispatcher ε)

private theorem spent_succ (machine : Machine) (n : Nat) :
    dispatcher.spent machine (n + 1) = dispatcher.spent machine n + dispatcher.due (dispatcher.moments machine n) :=
  Finset.sum_range_succ _ n

private theorem accounts_moments {machine : Machine} {allotment : Nat} (h : machine.gas.Accounts allotment 0)
    (n : Nat) :
    (dispatcher.moments machine n).machine.gas.Accounts allotment (dispatcher.spent machine n) := by
  induction n with
  | zero => exact h
  | succ n ih =>
    rw [moments_succ, spent_succ]
    exact ih.charged (dispatcher.tick_ticks _).charged

private theorem overdrawn_of_outOfGas {machine : Machine} (running : machine.status ≠ .outOfGas) (n : Nat) :
    (dispatcher.moments machine n).machine.status = .outOfGas →
      (dispatcher.moments machine n).machine.gas.isOverdrawn = true := by
  induction n with
  | zero => exact fun ended => absurd ended running
  | succ n ih =>
    rw [moments_succ]
    exact (dispatcher.tick_ticks _).overdrawn ih

/-- Wherever an execution is, the gas it has used is the sum of what fell due so far, as far as the allotment goes.
Hence gas used never decreases, together with the gas left it makes up the allotment, and an execution that ends for
want of gas has used all of it. The moments of an execution include its states between instructions and host calls. -/
theorem gas_used_is_what_fell_due (machine : Machine) (program : Array UInt8) (pc : UInt32) (gas : UInt64)
    (registers : Option Registers) (memory : Option Memory) :
    let started := machine.reset program pc gas registers memory
    let now := fun n => (dispatcher.moments started n).machine
    let allotment := min gas.toNat GasCounter.maxGas
    (∀ n, (now n).gasUsed =
      min allotment (∑ k ∈ Finset.range n, dispatcher.due (dispatcher.moments started k))) ∧
    (∀ n m, n ≤ m → (now n).gasUsed ≤ (now m).gasUsed) ∧
    (∀ n, (now n).gas.remaining + (now n).gasUsed = allotment) ∧
    (∀ n, (now n).result.outcome = .outOfGas → (now n).result.gasUsed = allotment) ∧
    (∀ k, ∃ n, dispatcher.moments started n = (dispatcher.advance^[k] ⟨started, #[]⟩).moment) ∧
    ∀ execution, dispatcher.run? started = some execution →
      execution.machine.result.outcome = .outOfGas → execution.machine.result.gasUsed = allotment := by
  intro started now allotment
  have accounts : ∀ n, (now n).gas.Accounts allotment (dispatcher.spent started n) :=
    dispatcher.accounts_moments (GasCounter.accounts_new gas)
  have exhausted : ∀ n, (now n).result.outcome = .outOfGas → (now n).result.gasUsed = allotment := by
    intro n ended
    have status := Machine.status_of_outcome ended
    refine (accounts n).used_eq_of_overdrawn (dispatcher.overdrawn_of_outOfGas ?_ n status)
    simp [started, Machine.reset]
  refine ⟨fun n => (accounts n).used_eq, fun n m le => ?_, fun n => (accounts n).remaining_add_used, exhausted,
    dispatcher.exists_moment_of_advances started, fun execution ran => ?_⟩
  · have grows : dispatcher.spent started n ≤ dispatcher.spent started m :=
      Finset.sum_le_sum_of_subset (Finset.range_mono le)
    rw [Machine.gasUsed, Machine.gasUsed, (accounts n).used_eq, (accounts m).used_eq]
    omega
  · obtain ⟨n, reached⟩ := exists_moment_of_run? ran
    have same : now n = execution.machine := congrArg (fun moment => moment.machine) reached
    exact same ▸ exhausted n

/-- A host call that charges more than any program is given. -/
def greedy : Dispatcher Unit := ⟨⟨[(7, ⟨fun _ => .variable 3, .chargeGas 100 fun _ => .done none⟩)], by decide⟩, 0⟩

/-- An execution that is left with a debt by its host call, and cannot pay for the instruction behind it. -/
theorem gas_used_is_what_fell_due_to_greedy_call :
    let started := (Machine.idle 2).reset #[10, 7, 0, 0, 0, 1] 0 50 none none
    ∑ k ∈ Finset.range 5, greedy.due (greedy.moments started k) = 107 ∧
      (greedy.moments started 5).machine.gasUsed = min 50 107 ∧
      ∃ execution, greedy.run? started = some execution ∧ execution.machine.result.outcome = .outOfGas ∧
        execution.machine.result.gasUsed = 50 := by
  intro started
  have total : ∑ k ∈ Finset.range 5, greedy.due (greedy.moments started k) = 107 := by decide
  obtain ⟨used, -, -, -, -, exhausted⟩ :=
    gas_used_is_what_fell_due greedy (Machine.idle 2) #[10, 7, 0, 0, 0, 1] 0 50 none none
  have consumed : (greedy.moments started 5).machine.gasUsed = min (min (50 : UInt64).toNat GasCounter.maxGas)
      (∑ k ∈ Finset.range 5, greedy.due (greedy.moments started k)) := used 5
  have allotment : min (50 : UInt64).toNat GasCounter.maxGas = 50 := by decide
  rw [total, allotment] at consumed
  refine ⟨total, consumed, ?_⟩
  have outcome : (greedy.run? started).map (·.machine.result.outcome) = some .outOfGas := by decide
  obtain ⟨execution, ran, ended⟩ := Option.map_eq_some_iff.mp outcome
  exact ⟨execution, ran, ended, exhausted execution ran ended⟩

end Dispatcher

end MeteredVm
