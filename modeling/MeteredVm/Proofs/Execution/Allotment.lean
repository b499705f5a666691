import MeteredVm.Proofs.Execution.Endings

/-!
The same execution with more gas. If the handlers have nothing to do with the counter, a larger allotment changes
nothing of what an execution does before it would run out of gas. The main statement compares the executions of one
program with two allotments, the smaller of which ends the execution early if it ends it for want of gas, and else does
not matter.
-/

set_option autoImplicit false
set_option relaxedAutoImplicit false

namespace MeteredVm

namespace HostProgram

variable {ε α : Type}

/-- The program makes no request that reads or charges the gas counter. -/
def IgnoresGas : HostProgram ε α → Prop
  | .done _ => True
  | .getRegister _ next => ∀ value, (next value).IgnoresGas
  | .setRegister _ _ next => next.IgnoresGas
  | .readGas _ => False
  | .chargeGas _ _ => False
  | .store _ _ next => ∀ outcome, (next outcome).IgnoresGas
  | .load _ _ next => ∀ outcome, (next outcome).IgnoresGas
  | .isReadable _ _ next => ∀ holds, (next holds).IgnoresGas
  | .isWriteable _ _ next => ∀ holds, (next holds).IgnoresGas
  | .report _ next => next.IgnoresGas
  | .suspend next => next.IgnoresGas

private theorem run_withGas (program : HostProgram ε α) (ignores : program.IgnoresGas) (view : GuestView)
    (gas : GasCounter) :
    program.run { view with gas } =
      ((program.run view).1, { (program.run view).2.1 with gas }, (program.run view).2.2) := by
  induction program generalizing view with
  | done value => rfl
  | getRegister r next ih => exact ih _ (ignores _) view
  | setRegister r value next ih => exact ih ignores { view with registers := view.registers.set r value }
  | readGas next ih => exact ignores.elim
  | chargeGas amount next ih => exact ignores.elim
  | store address payload next ih =>
    simp only [run]
    cases Memory.Host.store view.memory address payload.bytes with
    | error error => exact ih _ (ignores _) view
    | ok memory => exact ih _ (ignores _) { view with memory }
  | load address length next ih => exact ih _ (ignores _) view
  | isReadable address length next ih => exact ih _ (ignores _) view
  | isWriteable address length next ih => exact ih _ (ignores _) view
  | report entry next ih =>
    simp only [run, ih ignores view]
  | suspend next ih => exact ih ignores view

private theorem gas_run_of_ignoresGas (program : HostProgram ε α) (ignores : program.IgnoresGas) (view : GuestView) :
    (program.run view).2.1.gas = view.gas := by
  have same := program.run_withGas ignores view view.gas
  exact congrArg (fun ran => ran.2.1.gas) same

end HostProgram

namespace GasCounter

/-- The counter of the same execution with a larger allotment. -/
def topUp (counter : GasCounter) (extra : Nat) : GasCounter :=
  ⟨counter.initial + extra, counter.balance + extra⟩

private theorem new_topUp {gas₁ gas₂ : UInt64} (le : gas₁ ≤ gas₂) :
    new gas₂ = (new gas₁).topUp (min gas₂.toNat maxGas - min gas₁.toNat maxGas) := by
  have more : gas₁.toNat ≤ gas₂.toNat := le
  simp only [new, topUp, GasCounter.mk.injEq]
  omega

private theorem deduct_topUp {counter : GasCounter} {amount : UInt64} (extra : Nat)
    (affordable : (counter.deduct amount).isOverdrawn = false) :
    (counter.topUp extra).deduct amount = (counter.deduct amount).topUp extra := by
  have left : ¬ (counter.deduct amount).balance < 0 := of_decide_eq_false affordable
  simp only [deduct, minBalance, topUp, GasCounter.mk.injEq, true_and] at left ⊢
  omega

private theorem isOverdrawn_topUp {counter : GasCounter} (extra : Nat) (solvent : counter.isOverdrawn = false) :
    (counter.topUp extra).isOverdrawn = false := by
  have left : ¬ counter.balance < 0 := of_decide_eq_false solvent
  refine decide_eq_false ?_
  simp only [topUp]
  omega

private theorem used_topUp {counter : GasCounter} (extra : Nat) (solvent : counter.isOverdrawn = false) :
    (counter.topUp extra).used = counter.used := by
  have left : ¬ counter.balance < 0 := of_decide_eq_false solvent
  simp only [used, topUp]
  omega

end GasCounter

namespace Machine

def withGas (machine : Machine) (gas : GasCounter) : Machine := { machine with gas }

def topUp (machine : Machine) (extra : Nat) : Machine := machine.withGas (machine.gas.topUp extra)

section

variable (machine : Machine) (gas : GasCounter)

private theorem jumpTo_withGas (target : UInt32) :
    (machine.withGas gas).jumpTo target = (machine.jumpTo target).withGas gas := by
  by_cases inside : target.toNat < machine.program.size <;> simp [jumpTo, withGas, inside, stop]

private theorem loadFrom_withGas (kind : LoadKind) (dst : Reg) (address next : UInt32) :
    (machine.withGas gas).loadFrom kind dst address next = (machine.loadFrom kind dst address next).withGas gas := by
  simp only [loadFrom, withGas]
  cases machine.memory.load address.toUInt64 (UInt64.ofNat kind.width) <;> rfl

private theorem storeTo_withGas (kind : StoreKind) (value : UInt64) (address next : UInt32) :
    (machine.withGas gas).storeTo kind value address next = (machine.storeTo kind value address next).withGas gas := by
  simp only [storeTo, withGas]
  cases machine.memory.store address.toUInt64 (LittleEndian.write value.toNat kind.width) <;> rfl

private theorem growHeap_withGas (dst : Reg) (size : UInt64) (next : UInt32) :
    (machine.withGas gas).growHeap dst size next = (machine.growHeap dst size next).withGas gas := by
  simp only [growHeap, withGas]
  split <;> rfl

private theorem execute_withGas (next : UInt32) (instruction : Instruction Reg) :
    (machine.withGas gas).execute next instruction = (machine.execute next instruction).withGas gas := by
  cases instruction with
  | jump target => exact machine.jumpTo_withGas gas target
  | jumpInd base offset =>
    simp only [execute, jumpTo_withGas, apply_ite (fun m : Machine => m.withGas gas)]
    rfl
  | branch condition a b target =>
    simp only [execute, jumpTo_withGas, apply_ite (fun m : Machine => m.withGas gas)]
    rfl
  | load kind dst address => exact machine.loadFrom_withGas gas kind dst address next
  | loadInd kind dst base offset => exact machine.loadFrom_withGas gas kind dst _ next
  | store kind src address => exact machine.storeTo_withGas gas kind _ address next
  | storeInd kind src base offset => exact machine.storeTo_withGas gas kind _ _ next
  | sbrk dst size => exact machine.growHeap_withGas gas dst _ next
  | _ => rfl

private theorem conclude_withGas (verdict : Option HostVerdict) :
    (machine.withGas gas).conclude verdict = (machine.conclude verdict).withGas gas := by
  cases verdict with
  | some verdict => cases verdict <;> rfl
  | none =>
    obtain ⟨program, pc, registers, memory, before, status, price⟩ := machine
    cases status <;> rfl

end

private theorem pay_topUp {machine : Machine} {amount : UInt64} (extra : Nat)
    (affordable : (machine.pay amount).gas.isOverdrawn = false) :
    (machine.topUp extra).pay amount = (machine.pay amount).topUp extra := by
  have paid := GasCounter.deduct_topUp extra (show (machine.gas.deduct amount).isOverdrawn = false from affordable)
  simp only [pay, topUp, withGas, paid]

private theorem chargeGas_topUp {machine : Machine} {cost : GasCost} (extra : Nat)
    (affordable : (machine.pay cost.amount).gas.isOverdrawn = false) :
    (machine.topUp extra).chargeGas cost = ((machine.pay cost.amount).topUp extra, .ok ()) := by
  have same := pay_topUp extra affordable
  have affordable' : ((machine.topUp extra).pay cost.amount).gas.isOverdrawn = false := by
    rw [same]
    exact GasCounter.isOverdrawn_topUp extra affordable
  rw [chargeGas_of_affordable affordable', same]

private theorem conclude_topUp (machine : Machine) (extra : Nat) (verdict : Option HostVerdict) :
    (machine.topUp extra).conclude verdict = (machine.conclude verdict).topUp extra := by
  rw [topUp, topUp, conclude_withGas, gas_conclude]

private theorem execute_topUp (machine : Machine) (extra : Nat) (next : UInt32) (instruction : Instruction Reg) :
    (machine.topUp extra).execute next instruction = (machine.execute next instruction).topUp extra := by
  rw [topUp, topUp, execute_withGas, (machine.execute_executes next instruction).gas_eq]

private theorem step_topUp {machine : Machine} (extra : Nat) (paid : machine.step.status ≠ .outOfGas) :
    (machine.topUp extra).step = machine.step.topUp extra := by
  by_cases running : machine.status = .continuing
  · have running' : (machine.topUp extra).status = .continuing := running
    cases decoded : decode machine.program machine.pc with
    | error error => rw [step_of_undecodable running decoded, step_of_undecodable running' decoded]; rfl
    | ok found =>
      obtain ⟨instruction, next⟩ := found
      cases left : (machine.pay machine.instructionGas.toUInt64).gas.isOverdrawn with
      | true =>
        rw [step_of_overdrawn running decoded left] at paid
        exact absurd rfl paid
      | false =>
        have same := pay_topUp extra left
        have left' : ((machine.topUp extra).pay machine.instructionGas.toUInt64).gas.isOverdrawn = false := by
          rw [same]
          exact GasCounter.isOverdrawn_topUp extra left
        rw [step_of_affordable running decoded left, step_of_affordable running' decoded left', ← execute_topUp, ← same]
        rfl
  · have stopped : machine.step = machine := if_pos running
    have stopped' : (machine.topUp extra).step = machine.topUp extra := if_pos running
    rw [stopped, stopped']

private theorem result_topUp {machine : Machine} (extra : Nat) (solvent : machine.gas.isOverdrawn = false) :
    (machine.topUp extra).result = machine.result := by
  have used : (machine.topUp extra).gasUsed = machine.gasUsed := GasCounter.used_topUp extra solvent
  simp only [result, used]
  rfl

/-- The machines have the same registers, memory and program counter. -/
structure SameState (machine other : Machine) : Prop where
  registers : other.registers = machine.registers
  memory : other.memory = machine.memory
  pc : other.pc = machine.pc

private theorem Steps.sameState_of_outOfGas {machine after : Machine} (h : machine.Steps after)
    (ended : after.status = .outOfGas) : machine.SameState after := by
  cases h with
  | stays => exact ⟨rfl, rfl, rfl⟩
  | undecodable => exact ⟨rfl, rfl, rfl⟩
  | unaffordable => exact ⟨rfl, rfl, rfl⟩
  | executes instruction next _ running _ _ executed => exact absurd ended (executed.status_ne running)

private theorem Steps.solvent {machine after : Machine} (h : machine.Steps after)
    (solvent : machine.gas.isOverdrawn = false) (paid : after.status ≠ .outOfGas) : after.gas.isOverdrawn = false := by
  cases h with
  | stays => exact solvent
  | undecodable => exact solvent
  | unaffordable => exact absurd rfl paid
  | executes instruction next _ _ _ affordable executed =>
    rw [executed.gas_eq]
    exact affordable

end Machine

def Execution.topUp {ε : Type} (execution : Execution ε) (extra : Nat) : Execution ε :=
  { execution with machine := execution.machine.topUp extra }

namespace Dispatcher

variable {ε : Type} {dispatcher : Dispatcher ε}

/-- No handler reads or charges the gas counter while it runs. -/
def HandlersIgnoreGas (dispatcher : Dispatcher ε) : Prop :=
  ∀ index handler, dispatcher.registry.get? index = some handler → handler.execute.IgnoresGas

private theorem refuse_topUp {execution : Execution ε} (extra : Nat)
    (paid : (dispatcher.refuse execution).machine.status ≠ .outOfGas) :
    dispatcher.refuse (execution.topUp extra) = (dispatcher.refuse execution).topUp extra ∧
      (dispatcher.refuse execution).machine.gas.isOverdrawn = false := by
  cases left : (execution.machine.pay (GasCost.fixed dispatcher.unknownCallGas).amount).gas.isOverdrawn with
  | true =>
    rw [refuse, Machine.chargeGas_of_overdrawn left] at paid
    exact absurd rfl paid
  | false =>
    have charged := Machine.chargeGas_of_affordable left
    have charged' : (execution.topUp extra).machine.chargeGas (.fixed dispatcher.unknownCallGas) = _ :=
      Machine.chargeGas_topUp extra left
    generalize execution.machine.pay (GasCost.fixed dispatcher.unknownCallGas).amount = machine at left charged charged'
    let answered : Machine :=
      { machine with registers := machine.registers.set HostCall.resultRegister ResultCode.what.word }
    have resumed : (answered.topUp extra).resume = answered.resume.topUp extra := answered.conclude_topUp extra none
    have solvent : answered.resume.gas = machine.gas := answered.gas_conclude none
    simp only [refuse, charged, charged']
    refine ⟨congrArg (fun machine => (⟨machine, execution.reports⟩ : Execution ε)) resumed, ?_⟩
    exact (congrArg GasCounter.isOverdrawn solvent).trans left

private theorem serve_topUp {handler : Handler ε} (ignores : handler.execute.IgnoresGas) {execution : Execution ε}
    (extra : Nat) (paid : (serve handler execution).machine.status ≠ .outOfGas) :
    serve handler (execution.topUp extra) = (serve handler execution).topUp extra ∧
      (serve handler execution).machine.gas.isOverdrawn = false := by
  cases left : (execution.machine.pay (handler.cost execution.machine.registers).amount).gas.isOverdrawn with
  | true =>
    rw [serve, Machine.chargeGas_of_overdrawn left] at paid
    exact absurd rfl paid
  | false =>
    have charged := Machine.chargeGas_of_affordable left
    have charged' : (execution.topUp extra).machine.chargeGas (handler.cost (execution.topUp extra).machine.registers) =
        ((execution.machine.pay (handler.cost execution.machine.registers).amount).topUp extra, .ok ()) :=
      Machine.chargeGas_topUp extra left
    generalize execution.machine.pay (handler.cost execution.machine.registers).amount = machine
      at left charged charged'
    have ran : handler.execute.run (machine.topUp extra).view = _ :=
      handler.execute.run_withGas ignores machine.view (machine.gas.topUp extra)
    have kept : (handler.execute.run machine.view).2.1.gas = machine.gas :=
      handler.execute.gas_run_of_ignoresGas ignores machine.view
    simp only [serve, charged, charged', ran]
    generalize handler.execute.run machine.view = result at kept
    have returned : (machine.topUp extra).withView { result.2.1 with gas := machine.gas.topUp extra } =
        (machine.withView result.2.1).topUp extra := by
      rw [← kept]
      rfl
    rw [returned, Machine.conclude_topUp, Machine.gas_conclude]
    exact ⟨rfl, (congrArg GasCounter.isOverdrawn kept).trans left⟩

private theorem dispatch_topUp (ignore : dispatcher.HandlersIgnoreGas) {execution : Execution ε} {index : UInt32}
    (extra : Nat) (paid : (dispatcher.dispatch index execution).machine.status ≠ .outOfGas) :
    dispatcher.dispatch index (execution.topUp extra) = (dispatcher.dispatch index execution).topUp extra ∧
      (dispatcher.dispatch index execution).machine.gas.isOverdrawn = false := by
  unfold dispatch at paid ⊢
  cases found : dispatcher.registry.get? index with
  | none =>
    rw [found] at paid
    exact refuse_topUp extra paid
  | some handler =>
    rw [found] at paid
    exact serve_topUp (ignore index handler found) extra paid

private theorem advance_topUp (ignore : dispatcher.HandlersIgnoreGas) {execution : Execution ε} (extra : Nat)
    (solvent : execution.machine.gas.isOverdrawn = false)
    (paid : (dispatcher.advance execution).machine.status ≠ .outOfGas) :
    dispatcher.advance (execution.topUp extra) = (dispatcher.advance execution).topUp extra ∧
      (dispatcher.advance execution).machine.gas.isOverdrawn = false := by
  have same : (execution.topUp extra).machine.status = execution.machine.status := rfl
  unfold advance at paid ⊢
  rw [same]
  cases status : execution.machine.status with
  | continuing =>
    simp only [status] at paid ⊢
    have stepped : (execution.topUp extra).machine.step = execution.machine.step.topUp extra :=
      Machine.step_topUp extra paid
    rw [stepped]
    exact ⟨rfl, execution.machine.step_steps.solvent solvent paid⟩
  | hostCall index =>
    simp only [status] at paid ⊢
    exact dispatch_topUp ignore extra paid
  | halt => exact ⟨rfl, solvent⟩
  | panic => exact ⟨rfl, solvent⟩
  | outOfGas => exact ⟨rfl, solvent⟩

/-- As long as an execution has not run out of gas, the one with more gas is at the same point. -/
private theorem iterate_advance_topUp (ignore : dispatcher.HandlersIgnoreGas) (execution : Execution ε) (extra : Nat)
    (solvent : execution.machine.gas.isOverdrawn = false) {k : Nat}
    (paid : (dispatcher.advance^[k] execution).machine.status ≠ .outOfGas) :
    dispatcher.advance^[k] (execution.topUp extra) = (dispatcher.advance^[k] execution).topUp extra ∧
      (dispatcher.advance^[k] execution).machine.gas.isOverdrawn = false := by
  induction k with
  | zero => exact ⟨rfl, solvent⟩
  | succ k ih =>
    rw [Function.iterate_succ_apply'] at paid ⊢
    have before : (dispatcher.advance^[k] execution).machine.status ≠ .outOfGas := by
      intro ended
      rw [dispatcher.advance_of_isFinished (by simp [isFinished, ended, Status.isTerminal])] at paid
      exact paid ended
    obtain ⟨same, left⟩ := ih before
    -- the two executions take the next step from the same point, and the smaller allotment still pays for it
    rw [Function.iterate_succ_apply', same]
    exact advance_topUp ignore extra left paid

private theorem sameState_of_outOfGas {execution : Execution ε} (before : execution.machine.status ≠ .outOfGas)
    (ended : (dispatcher.advance execution).machine.status = .outOfGas) :
    execution.machine.SameState (dispatcher.advance execution).machine := by
  unfold advance at ended ⊢
  cases status : execution.machine.status with
  | continuing =>
    simp only [status] at ended ⊢
    exact execution.machine.step_steps.sameState_of_outOfGas ended
  | halt => exact ⟨rfl, rfl, rfl⟩
  | panic => exact ⟨rfl, rfl, rfl⟩
  | outOfGas => exact ⟨rfl, rfl, rfl⟩
  | hostCall index =>
    simp only [status, dispatch] at ended ⊢
    cases found : dispatcher.registry.get? index with
    | none =>
      simp only [found, refuse] at ended ⊢
      cases paid : (execution.machine.pay (GasCost.fixed dispatcher.unknownCallGas).amount).gas.isOverdrawn with
      | true =>
        rw [Machine.chargeGas_of_overdrawn paid]
        exact ⟨rfl, rfl, rfl⟩
      | false =>
        rw [Machine.chargeGas_of_affordable paid] at ended
        have ranOut : (Machine.conclude _ none).status = .outOfGas := ended
        exact absurd (Machine.status_conclude ranOut) before
    | some handler =>
      simp only [found, serve] at ended ⊢
      cases paid : (execution.machine.pay (handler.cost execution.machine.registers).amount).gas.isOverdrawn with
      | true =>
        rw [Machine.chargeGas_of_overdrawn paid]
        exact ⟨rfl, rfl, rfl⟩
      | false =>
        rw [Machine.chargeGas_of_affordable paid] at ended
        exact absurd (Machine.status_conclude ended) before

private theorem exists_sameState_of_outOfGas (execution : Execution ε) (before : execution.machine.status ≠ .outOfGas)
    {k : Nat} (ended : (dispatcher.advance^[k] execution).machine.status = .outOfGas) :
    ∃ j, (dispatcher.advance^[j] execution).machine.status ≠ .outOfGas ∧
      (dispatcher.advance^[j] execution).machine.SameState (dispatcher.advance^[k] execution).machine := by
  induction k with
  | zero => exact absurd ended before
  | succ k ih =>
    rw [Function.iterate_succ_apply'] at ended ⊢
    -- an execution that has run out of gas rests, so only the step into that status matters
    by_cases already : (dispatcher.advance^[k] execution).machine.status = .outOfGas
    · rw [dispatcher.advance_of_isFinished (by simp [isFinished, already, Status.isTerminal])]
      exact ih already
    · exact ⟨k, already, sameState_of_outOfGas already ended⟩

private theorem allowance_topUp_le (machine : Machine) (extra : Nat) :
    allowance machine ≤ allowance (machine.topUp extra) := by
  have more : machine.gas.remaining ≤ (machine.topUp extra).gas.remaining := by
    simp only [Machine.topUp, Machine.withGas, GasCounter.topUp, GasCounter.remaining]
    omega
  have price : (machine.topUp extra).instructionGas = machine.instructionGas := rfl
  have steps : machine.stepAllowance ≤ (machine.topUp extra).stepAllowance := by
    unfold Machine.stepAllowance
    rw [price]
    split
    · exact Nat.le_refl _
    · exact Nat.succ_le_succ (Nat.div_le_div_right more)
  unfold allowance
  omega

/-- An execution that ends with gas left ends alike with more gas, and after as many instructions and host calls. -/
private theorem end_topUp (ignore : dispatcher.HandlersIgnoreGas) {machine : Machine} (extra : Nat)
    (solvent : machine.gas.isOverdrawn = false) {last : Execution ε} {k : Nat}
    (reached : dispatcher.advance^[k] ⟨machine, #[]⟩ = last) (paid : last.machine.result.outcome ≠ .outOfGas) :
    dispatcher.advance^[k] ⟨machine.topUp extra, #[]⟩ = last.topUp extra ∧
      (last.topUp extra).machine.result = last.machine.result ∧
      last.machine.SameState (last.topUp extra).machine ∧ (last.topUp extra).reports = last.reports := by
  have status : last.machine.status ≠ .outOfGas := mt last.machine.outcome_eq_outOfGas_iff.mpr paid
  subst reached
  obtain ⟨same, left⟩ := iterate_advance_topUp ignore ⟨machine, #[]⟩ extra solvent status
  exact ⟨same, Machine.result_topUp extra left, ⟨rfl, rfl, rfl⟩, rfl⟩

/-- Gas only cuts an execution short. Of the executions of one program by the same dispatcher, whose handlers have
nothing to do with the counter, the one with more gas ends just as the other does unless that runs out of gas, and if
it does, passes through the state in which it did. -/
theorem gas_only_cuts_executions_short (ignore : dispatcher.HandlersIgnoreGas) (machine : Machine)
    (program : Array UInt8) (pc : UInt32) (registers : Option Registers) (memory : Option Memory) {gas₁ gas₂ : UInt64}
    (le : gas₁ ≤ gas₂) :
    let started := fun gas => machine.reset program pc gas registers memory
    (∀ last, dispatcher.Ends (started gas₁) last → last.machine.result.outcome ≠ .outOfGas →
      ∃ last', dispatcher.Ends (started gas₂) last' ∧ last'.machine.result = last.machine.result ∧
        last.machine.SameState last'.machine ∧ last'.reports = last.reports) ∧
    (∀ last, dispatcher.Ends (started gas₁) last → last.machine.result.outcome = .outOfGas →
      ∃ k, last.machine.SameState (dispatcher.advance^[k] ⟨started gas₂, #[]⟩).machine) ∧
    (∀ last, dispatcher.run? (started gas₁) = some last → dispatcher.Ends (started gas₁) last) ∧
    ∀ last, dispatcher.run? (started gas₁) = some last → last.machine.result.outcome ≠ .outOfGas →
      ∃ last', dispatcher.run? (started gas₂) = some last' ∧ last'.machine.result = last.machine.result ∧
        last.machine.SameState last'.machine ∧ last'.reports = last.reports := by
  intro started
  let extra := min gas₂.toNat GasCounter.maxGas - min gas₁.toNat GasCounter.maxGas
  have more : started gas₂ = (started gas₁).topUp extra := by
    simp only [started, Machine.reset, Machine.topUp, Machine.withGas, GasCounter.new_topUp le, extra]
  have solvent : (started gas₁).gas.isOverdrawn = false := GasCounter.isOverdrawn_new gas₁
  have running : (started gas₁).status ≠ .outOfGas := by simp [started, Machine.reset]
  refine ⟨fun last ends paid => ?_, fun last ends ranOut => ?_, fun _ => dispatcher.ends_of_run?,
    fun last ran paid => ?_⟩
  · obtain ⟨done, k, reached⟩ := ends
    obtain ⟨reached', same⟩ := end_topUp ignore extra solvent reached paid
    rw [more]
    exact ⟨last.topUp extra, ⟨done, k, reached'⟩, same⟩
  · obtain ⟨-, k, rfl⟩ := ends
    have status := Machine.status_of_outcome ranOut
    obtain ⟨j, paid, same⟩ := exists_sameState_of_outOfGas ⟨started gas₁, #[]⟩ running status
    obtain ⟨reached, -⟩ := iterate_advance_topUp ignore ⟨started gas₁, #[]⟩ extra solvent paid
    have reached' : dispatcher.advance^[j] ⟨(started gas₁).topUp extra, #[]⟩ = _ := reached
    refine ⟨j, ?_⟩
    rw [more, reached']
    exact ⟨same.registers.symm, same.memory.symm, same.pc.symm⟩
  · obtain ⟨done, k, le, reached⟩ := dispatcher.run?_eq_some_iff.mp ran
    obtain ⟨reached', same⟩ := end_topUp ignore extra solvent reached paid
    refine ⟨last.topUp extra, ?_, same⟩
    rw [more]
    exact dispatcher.run?_eq_some_iff.mpr
      ⟨done, k, Nat.le_trans le (allowance_topUp_le (started gas₁) extra), reached'⟩

/-- A host call that copies a register and asks for the end. -/
def copying : Dispatcher Unit where
  registry :=
    ⟨[(7, ⟨fun registers => .linear 3 (registers.get (.numbered 9)),
      .getRegister (.numbered 8) fun value => .setRegister (.numbered 7) value (.done (some .halt))⟩)], by decide⟩
  unknownCallGas := 10

private theorem copying_handlersIgnoreGas : copying.HandlersIgnoreGas := by
  intro index handler found
  have known : (index, handler) ∈ copying.registry.entries := by
    obtain ⟨earlier, later, entries, -⟩ := List.lookup_eq_some_iff.mp found
    rw [entries]
    exact List.mem_append_cons_self
  obtain ⟨-, rfl⟩ := Prod.mk.inj (List.mem_singleton.mp known)
  exact fun _ => trivial

/-- The call can be paid from twenty and then is the same from fifty. It cannot be paid from four, which leaves the
guest in a state that it passes through with fifty. -/
theorem gas_only_cuts_executions_short_at_call :
    let started := fun gas => (Machine.idle 2).reset #[10, 7, 0, 0, 0] 0 gas none none
    (∃ last last', copying.run? (started 20) = some last ∧ last.machine.result = ⟨.halt #[], 5⟩ ∧
      copying.run? (started 50) = some last' ∧ last'.machine.result = ⟨.halt #[], 5⟩ ∧
      last.machine.SameState last'.machine) ∧
    ∃ last, copying.Ends (started 4) last ∧ last.machine.result.outcome = .outOfGas ∧
      ∃ k, last.machine.SameState (copying.advance^[k] ⟨started 50, #[]⟩).machine := by
  dsimp only
  have long := gas_only_cuts_executions_short copying_handlersIgnoreGas (Machine.idle 2) #[10, 7, 0, 0, 0] 0 none none
    (show (20 : UInt64) ≤ 50 by decide)
  have short := gas_only_cuts_executions_short copying_handlersIgnoreGas (Machine.idle 2) #[10, 7, 0, 0, 0] 0 none none
    (show (4 : UInt64) ≤ 50 by decide)
  have halts : (copying.run? ((Machine.idle 2).reset #[10, 7, 0, 0, 0] 0 20 none none)).map
      (·.machine.result) = some ⟨.halt #[], 5⟩ := by decide +kernel
  have runsOut : (copying.run? ((Machine.idle 2).reset #[10, 7, 0, 0, 0] 0 4 none none)).map
      (·.machine.result.outcome) = some .outOfGas := by decide +kernel
  obtain ⟨last, ran, result⟩ := Option.map_eq_some_iff.mp halts
  obtain ⟨exhausted, ran', outcome⟩ := Option.map_eq_some_iff.mp runsOut
  obtain ⟨-, -, -, alike⟩ := long
  obtain ⟨-, passes, ends, -⟩ := short
  obtain ⟨last', ranAlike, same, state, -⟩ := alike last ran (by rw [result]; simp)
  have ended := ends exhausted ran'
  exact ⟨⟨last, last', ran, result, ranAlike, same.trans result, state⟩,
    exhausted, ended, outcome, passes exhausted ended outcome⟩

end Dispatcher

end MeteredVm
