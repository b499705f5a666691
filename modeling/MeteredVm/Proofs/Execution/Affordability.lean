import MeteredVm.Proofs.Execution.Spending
import MeteredVm.Node.HostCalls

/-!
What a counter can pay for. A charge succeeds exactly if its amount is covered by what is left, with one exception:
an amount beyond the largest allotment is cut down to it, so a counter that is still full to the brim pays any price.
The main statement carries this over to the instructions and handlers of an execution; the exception is shown to occur.
-/

set_option autoImplicit false
set_option relaxedAutoImplicit false

namespace MeteredVm

namespace GasCounter

/-- The counters that come of a new one by charges. -/
inductive Reachable : GasCounter → Prop where
  | new (allotment : UInt64) : Reachable (new allotment)
  | charge {counter : GasCounter} (h : counter.Reachable) (amount : UInt64) : Reachable (counter.charge amount).1

variable {counter : GasCounter}

theorem Reachable.balance_le (h : counter.Reachable) : counter.balance ≤ maxGas := by
  induction h with
  | new allotment =>
    simp only [GasCounter.new]
    omega
  | charge h amount ih =>
    simp only [GasCounter.charge, deduct, minBalance, maxGas] at ih ⊢
    omega

theorem Reachable.charged {after : GasCounter} {due : Nat} (h : counter.Reachable)
    (charged : counter.Charged due after) : after.Reachable := by
  cases charged with
  | nothing => exact h
  | amount amount => exact h.charge amount

theorem charge_eq_ok_iff (counter : GasCounter) (amount : UInt64) :
    (counter.charge amount).2 = .ok () ↔ (counter.deduct amount).isOverdrawn = false := by
  simp only [charge, verdict]
  cases (counter.deduct amount).isOverdrawn <;> simp

/-- An amount can be paid if it is there. Beyond the cap all amounts are the same, and a full counter holds the cap. -/
private theorem Reachable.isOverdrawn_deduct_iff (h : counter.Reachable) (amount : UInt64) :
    (counter.deduct amount).isOverdrawn = false ↔
      (amount.toNat : Int) ≤ counter.balance ∨ counter.balance = maxGas := by
  have le := h.balance_le
  have wide := amount.toNat_lt
  rw [isOverdrawn, decide_eq_false_iff_not, Int.not_lt]
  simp only [deduct, minBalance, maxGas] at le ⊢
  omega

private theorem isOverdrawn_charges (h : counter.isOverdrawn = true) (amounts : List UInt64) :
    (amounts.foldl (fun counter amount => (counter.charge amount).1) counter).isOverdrawn = true := by
  induction amounts generalizing counter with
  | nil => exact h
  | cons amount rest ih => exact ih (isOverdrawn_deduct h)

end GasCounter

namespace Dispatcher

variable {ε : Type} (dispatcher : Dispatcher ε)

private theorem reachable_moments {machine : Machine} (h : machine.gas.Reachable) (n : Nat) :
    (dispatcher.moments machine n).machine.gas.Reachable := by
  induction n with
  | zero => exact h
  | succ n ih =>
    rw [moments_succ]
    exact ih.charged (dispatcher.tick_ticks _).charged

private theorem begins_of_handler {moment : Moment ε} {program : HostProgram ε (Option HostVerdict)}
    (free : moment.handler = none) (begun : (dispatcher.tick moment).handler = some program) :
    ∃ index handler, moment.machine.status = .hostCall index ∧ dispatcher.registry.get? index = some handler ∧
      program = handler.execute ∧
      (moment.machine.pay (handler.cost moment.machine.registers).amount).gas.isOverdrawn = false := by
  have ticks := dispatcher.tick_ticks moment
  generalize dispatcher.tick moment = after at ticks begun
  cases ticks with
  | begins index amount handler _ pending due known affordable =>
    rw [← due, price_of_known known] at affordable
    exact ⟨index, handler, pending, known, (Option.some.inj begun).symm, affordable⟩
  | rests => exact absurd (free.symm.trans begun) (by simp)
  | serves program rest view reports held => exact absurd (free.symm.trans held) (by simp)
  | steps => cases begun
  | overdraws => cases begun
  | refuses => cases begun
  | concludes => cases begun

/-- Nothing is done on credit, except by a counter that is still full. A charge succeeds exactly if what is left covers
it or nothing was ever deducted from the largest allotment; once a charge failed, every later one does. Hence an
instruction takes effect exactly if its price is covered, and a handler runs only if its declared price is covered or
the counter is full. The counters of executions are of this kind at every moment. -/
theorem nothing_runs_on_credit_unless_full :
    (∀ counter : GasCounter, counter.Reachable → ∀ amount : UInt64,
      (counter.charge amount).2 = .ok () ↔
        (amount.toNat : Int) ≤ counter.balance ∨ counter.balance = GasCounter.maxGas) ∧
    (∀ counter : GasCounter, counter.Reachable → ∀ cost : GasCost,
      (counter.chargeCost cost).2 = .ok () ↔
        (cost.amount.toNat : Int) ≤ counter.balance ∨ counter.balance = GasCounter.maxGas) ∧
    (∀ (counter : GasCounter) (amount : UInt64), (counter.charge amount).2 ≠ .ok () →
      ∀ (amounts : List UInt64) (later : UInt64),
        ((amounts.foldl (fun c a => (c.charge a).1) (counter.charge amount).1).charge later).2 ≠ .ok ()) ∧
    (∀ (machine : Machine) (instruction : Instruction Reg) (next : UInt32), machine.status = .continuing →
      decode machine.program machine.pc = .ok (instruction, next) →
        machine.step =
          if (machine.instructionGas.toNat : Int) ≤ machine.gas.balance then
            (machine.pay machine.instructionGas.toUInt64).execute next instruction
          else (machine.pay machine.instructionGas.toUInt64).stop .outOfGas) ∧
    (∀ (moment : Moment ε) (program : HostProgram ε (Option HostVerdict)), moment.machine.gas.Reachable →
      moment.handler = none → (dispatcher.tick moment).handler = some program →
        ∃ index handler, moment.machine.status = .hostCall index ∧ dispatcher.registry.get? index = some handler ∧
          program = handler.execute ∧
          (((handler.cost moment.machine.registers).amount.toNat : Int) ≤ moment.machine.gas.balance ∨
            moment.machine.gas.balance = GasCounter.maxGas)) ∧
    ∀ (machine : Machine) (program : Array UInt8) (pc : UInt32) (gas : UInt64) (registers : Option Registers)
      (memory : Option Memory) (n : Nat),
      (dispatcher.moments (machine.reset program pc gas registers memory) n).machine.gas.Reachable := by
  have pays : ∀ counter : GasCounter, counter.Reachable → ∀ amount : UInt64,
      (counter.charge amount).2 = .ok () ↔
        (amount.toNat : Int) ≤ counter.balance ∨ counter.balance = GasCounter.maxGas :=
    fun counter reachable amount => (counter.charge_eq_ok_iff amount).trans (reachable.isOverdrawn_deduct_iff amount)
  refine ⟨pays, fun counter reachable cost => pays counter reachable cost.amount, ?_, ?_, ?_, ?_⟩
  · intro counter amount failed amounts later
    rw [ne_eq, GasCounter.charge_eq_ok_iff, Bool.not_eq_false] at failed ⊢
    exact GasCounter.isOverdrawn_deduct (GasCounter.isOverdrawn_charges failed amounts)
  · intro machine instruction next running decoded
    have covered := GasCounter.isOverdrawn_deduct_narrow machine.gas machine.instructionGas
    split
    · rename_i enough
      exact Machine.step_of_affordable running decoded (covered.mpr enough)
    · rename_i short
      exact Machine.step_of_overdrawn running decoded (Bool.not_eq_false _ ▸ mt covered.mp short)
  · intro moment program reachable free begun
    obtain ⟨index, handler, pending, known, same, affordable⟩ := dispatcher.begins_of_handler free begun
    exact ⟨index, handler, pending, known, same, (reachable.isOverdrawn_deduct_iff _).mp affordable⟩
  · intro machine program pc gas registers memory n
    exact dispatcher.reachable_moments (.new gas) n

/-- A machine that waits for a message of thirty bytes to be passed on, with part of its allotment spent. -/
def messageAsked : Moment String where
  machine :=
    { Machine.idle 1 with
      gas := ((GasCounter.new 50).charge 1).1
      registers := Registers.zero.set Node.messageLengthRegister 30
      status := .hostCall Node.logIndex }
  reports := #[]
  handler := none

/-- The message is passed on, for its price is covered. An amount that is not covered fails, and after it even an
amount of nothing does. -/
theorem nothing_runs_on_credit_unless_full_to_pass_message :
    let node : Dispatcher String := ⟨Node.registry, 10⟩
    let counter := messageAsked.machine.gas
    counter.Reachable ∧ (node.tick messageAsked).handler = some Node.logCall.execute ∧
      (((Node.logCall.cost messageAsked.machine.registers).amount.toNat : Int) ≤ counter.balance ∨
        counter.balance = GasCounter.maxGas) ∧
      ((counter.charge 49).2 = .ok () ↔
        ((49 : UInt64).toNat : Int) ≤ counter.balance ∨ counter.balance = GasCounter.maxGas) ∧
      (counter.charge 50).2 ≠ .ok () ∧ ((counter.charge 50).1.charge 0).2 ≠ .ok () := by
  intro node counter
  have reachable : counter.Reachable := .charge (.new 50) 1
  have begun : (node.tick messageAsked).handler = some Node.logCall.execute := rfl
  have registered : node.registry.get? Node.logIndex = some Node.logCall := rfl
  have failed : (counter.charge 50).2 ≠ .ok () := by decide
  obtain ⟨pays, -, fails, -, runs, -⟩ := nothing_runs_on_credit_unless_full node
  obtain ⟨index, handler, pending, known, -, covered⟩ := runs messageAsked _ reachable rfl begun
  obtain rfl : Node.logIndex = index := Status.hostCall.inj pending
  obtain rfl : Node.logCall = handler := Option.some.inj (registered.symm.trans known)
  exact ⟨reachable, begun, covered, pays counter reachable 49, failed, fails counter 50 failed [] 0⟩

/-- A host call that asks for more than any counter holds. -/
def priceless : Dispatcher Unit := ⟨⟨[(7, ⟨fun _ => .variable 9223372036854775808, .done none⟩)], by decide⟩, 0⟩

/-- A counter that holds the largest allotment pays one unit more than that, and a handler runs that asks for it. -/
theorem full_counter_runs_on_credit :
    let full := GasCounter.new 18446744073709551615
    let asking : Moment Unit := Execution.moment ⟨{ Machine.idle 0 with gas := full, status := .hostCall 7 }, #[]⟩
    full.Reachable ∧ ¬ ((9223372036854775808 : UInt64).toNat : Int) ≤ full.balance ∧
      (full.charge 9223372036854775808).2 = .ok () ∧
      (priceless.price 7 asking.machine.registers).amount = 9223372036854775808 ∧
      asking.handler = none ∧ (priceless.tick asking).handler = some (.done none) :=
  ⟨.new _, by decide, by decide, by decide, rfl, rfl⟩

end Dispatcher

end MeteredVm
