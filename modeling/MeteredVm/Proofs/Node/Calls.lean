import MeteredVm.Node.HostCalls
import MeteredVm.Proofs.Execution.Affordability
import MeteredVm.Proofs.Execution.Endings
import MeteredVm.Proofs.Execution.Termination
import MeteredVm.Proofs.Machine.Effects
import MeteredVm.Proofs.Memory.HostView

/-!
The host calls of the node, served on any machine that waits for one. The main statement gives the price of every call
and what its service changes: the gas, the status and the result register, and nothing else. A host call of the node
never ends an execution except for want of gas.
-/

set_option autoImplicit false
set_option relaxedAutoImplicit false

namespace MeteredVm

open AddressSpace HostCall

namespace Memory.Host

variable {memory : Memory} {address length : UInt64}

private theorem isReadable_iff :
    isReadable memory address length = true ↔
      length.toNat = 0 ∨ memory.Grants .read address.toNat length.toNat := by
  rw [isReadable_eq, Memory.isReadable, Option.isNone_iff_eq_none]
  exact memory.fault?_eq_none_iff .read address length

private theorem load_of_isReadable (readable : isReadable memory address length = true) :
    load memory address length = .ok (Cell.bytes memory.flat address.toNat length.toNat) := by
  rw [isReadable_eq, Memory.isReadable, Option.isNone_iff_eq_none] at readable
  rw [load_eq]
  exact load_flat readable

end Memory.Host

def GuestView.answered (view : GuestView) (answer : UInt64) : GuestView :=
  { view with registers := view.registers.set resultRegister answer }

namespace Node

/-- A message that can be passed on: it is empty, or it is not too long and all of it can be read. -/
def Deliverable (registers : Registers) (memory : Memory) : Prop :=
  (registers.get messageLengthRegister).toNat = 0 ∨
    (registers.get messageLengthRegister).toNat ≤ 65536 ∧
      memory.Grants .read (registers.get messageAddressRegister).toNat (registers.get messageLengthRegister).toNat

def message (registers : Registers) (memory : Memory) : Array UInt8 :=
  Cell.bytes memory.flat (registers.get messageAddressRegister).toNat (registers.get messageLengthRegister).toNat

section

variable {registers : Registers} {memory : Memory}

private theorem deliverable_iff :
    Deliverable registers memory ↔ registers.get messageLengthRegister ≤ maxMessageLength ∧
      Memory.Host.isReadable memory (registers.get messageAddressRegister)
        (registers.get messageLengthRegister) = true := by
  rw [Memory.Host.isReadable_iff, UInt64.le_iff_toNat_le, show maxMessageLength.toNat = 65536 from rfl, Deliverable]
  constructor
  · rintro (empty | ⟨short, granted⟩)
    · exact ⟨by omega, .inl empty⟩
    · exact ⟨short, .inr granted⟩
  · rintro ⟨short, empty | granted⟩
    · exact .inl empty
    · exact .inr ⟨short, granted⟩

instance decidableDeliverable : Decidable (Deliverable registers memory) := decidable_of_iff _ deliverable_iff.symm

private theorem Deliverable.load_eq (deliverable : Deliverable registers memory) :
    Memory.Host.load memory (registers.get messageAddressRegister) (registers.get messageLengthRegister) =
      .ok (message registers memory) :=
  Memory.Host.load_of_isReadable (deliverable_iff.mp deliverable).2

end

section

variable (view : GuestView)

private theorem run_gasProgram :
    gasProgram.run view = (none, view.answered (UInt64.ofNat view.gas.remaining), []) := rfl

variable {view}

private theorem run_logProgram_of_deliverable (deliverable : Deliverable view.registers view.memory) :
    logProgram.run view = (none, view.answered ResultCode.ok.word,
      [Text.Utf8.decodeLossy (message view.registers view.memory)]) := by
  obtain ⟨short, readable⟩ := deliverable_iff.mp deliverable
  simp only [logProgram, Bind.bind, HostProgram.bind, HostProgram.readRegister, HostProgram.run,
    if_neg (UInt64.not_lt.mpr short), readable]
  simp only [Bool.not_true, Bool.false_eq_true, if_false, HostProgram.run, deliverable.load_eq]
  rfl

private theorem run_logProgram_of_not_deliverable (undeliverable : ¬ Deliverable view.registers view.memory) :
    logProgram.run view = (none, view.answered ResultCode.oob.word, []) := by
  simp only [logProgram, Bind.bind, HostProgram.bind, HostProgram.readRegister, HostProgram.run]
  by_cases long : maxMessageLength < view.registers.get messageLengthRegister
  · rw [if_pos long]
    rfl
  · have unreadable : Memory.Host.isReadable view.memory (view.registers.get messageAddressRegister)
        (view.registers.get messageLengthRegister) = false := by
      rw [← Bool.not_eq_true]
      intro readable
      exact undeliverable (deliverable_iff.mpr ⟨UInt64.not_lt.mp long, readable⟩)
    simp only [if_neg long, HostProgram.run, unreadable]
    rfl

end

/-- What a call is answered by the guest state that is left once it was paid for. -/
def answer (index : UInt32) (view : GuestView) : UInt64 :=
  if index = 0 then UInt64.ofNat view.gas.remaining
  else if index = 100 then
    if Deliverable view.registers view.memory then ResultCode.ok.word else ResultCode.oob.word
  else ResultCode.what.word

def passedOn (index : UInt32) (view : GuestView) : List String :=
  if index = 100 ∧ Deliverable view.registers view.memory then
    [Text.Utf8.decodeLossy (message view.registers view.memory)]
  else []

end Node

namespace Dispatcher

variable {ε : Type} {dispatcher : Dispatcher ε} {execution : Execution ε} {index : UInt32}

private theorem dispatch_of_overdrawn (overdrawn :
      (execution.machine.pay (dispatcher.price index execution.machine.registers).amount).gas.isOverdrawn = true) :
    dispatcher.dispatch index execution =
      ⟨(execution.machine.pay (dispatcher.price index execution.machine.registers).amount).stop .outOfGas,
        execution.reports⟩ := by
  cases found : dispatcher.registry.get? index with
  | none =>
    rw [price_of_unknown found] at overdrawn ⊢
    rw [dispatch, found]
    simp only [refuse, Machine.chargeGas_of_overdrawn overdrawn]
  | some handler =>
    rw [price_of_known found] at overdrawn ⊢
    rw [dispatch, found]
    simp only [serve, Machine.chargeGas_of_overdrawn overdrawn]

section

variable (pending : execution.machine.status = .hostCall index)
  (affordable :
    (execution.machine.pay (dispatcher.price index execution.machine.registers).amount).gas.isOverdrawn = false)

include pending affordable

private theorem dispatch_of_unknown (unknown : dispatcher.registry.get? index = none) :
    let paid := execution.machine.pay (dispatcher.price index execution.machine.registers).amount
    dispatcher.dispatch index execution =
      ⟨(paid.withView (paid.view.answered ResultCode.what.word)).stop .continuing, execution.reports⟩ := by
  rw [price_of_unknown unknown] at affordable ⊢
  intro paid
  have waiting : (paid.withView (paid.view.answered ResultCode.what.word)).status = .hostCall index := pending
  rw [dispatch, unknown, ← Machine.conclude_none waiting]
  simp only [refuse, Machine.chargeGas_of_affordable affordable]
  rfl

private theorem dispatch_of_known {handler : Handler ε} {view : GuestView} {reports : List ε}
    (known : dispatcher.registry.get? index = some handler)
    (ran : handler.execute.run
      (execution.machine.pay (dispatcher.price index execution.machine.registers).amount).view =
        (none, view, reports)) :
    let paid := execution.machine.pay (dispatcher.price index execution.machine.registers).amount
    dispatcher.dispatch index execution =
      ⟨(paid.withView view).stop .continuing, execution.reports ++ reports⟩ := by
  rw [price_of_known known] at affordable ran ⊢
  intro paid
  have waiting : (paid.withView view).status = .hostCall index := pending
  rw [dispatch, known, ← Machine.conclude_none waiting]
  simp only [serve, Machine.chargeGas_of_affordable affordable, ran]
  rfl

end

end Dispatcher

namespace Node

private theorem get?_registry_of_unknown {index : UInt32} (notGas : index ≠ 0) (notLog : index ≠ 100) :
    registry.get? index = none := by
  have gas : (index == gasIndex) = false := beq_eq_false_iff_ne.mpr notGas
  have log : (index == logIndex) = false := beq_eq_false_iff_ne.mpr notLog
  simp only [Registry.get?, registry, List.lookup_cons, gas, log, List.lookup_nil]

/-- What a call costs: that of the message grows with its length, up to the largest word. -/
def callPrice (unknownCallGas : UInt32) (registers : Registers) (index : UInt32) : Nat :=
  if index = 0 then 10
  else if index = 100 then min (10 + (registers.get messageLengthRegister).toNat) 18446744073709551615
  else unknownCallGas.toNat

section

variable (unknownCallGas : UInt32)

private theorem amount_price (index : UInt32) (registers : Registers) :
    ((⟨registry, unknownCallGas⟩ : Dispatcher String).price index registers).amount.toNat =
      callPrice unknownCallGas registers index := by
  rw [callPrice]
  by_cases gas : index = 0
  · rw [if_pos gas, gas]
    rfl
  · rw [if_neg gas]
    by_cases log : index = 100
    · rw [if_pos log, log]
      show (UInt64.ofNat (min (10 + (registers.get messageLengthRegister).toNat) 18446744073709551615)).toNat = _
      apply UInt64.toNat_ofNat_of_lt'
      rw [UInt64.size]
      omega
    · rw [if_neg log, Dispatcher.price_of_unknown (get?_registry_of_unknown gas log)]
      exact UInt32.toNat_toUInt64 unknownCallGas

variable {execution : Execution String} {index : UInt32}

private theorem dispatch_of_affordable (pending : execution.machine.status = .hostCall index) :
    let dispatcher : Dispatcher String := ⟨registry, unknownCallGas⟩
    let paid := execution.machine.pay (dispatcher.price index execution.machine.registers).amount
    paid.gas.isOverdrawn = false →
      dispatcher.dispatch index execution =
        ⟨(paid.withView (paid.view.answered (answer index paid.view))).stop .continuing,
          execution.reports ++ passedOn index paid.view⟩ := by
  intro dispatcher paid affordable
  by_cases gas : index = 0
  · subst gas
    exact Dispatcher.dispatch_of_known pending affordable rfl (run_gasProgram paid.view)
  by_cases log : index = 100
  · subst log
    by_cases deliverable : Deliverable paid.view.registers paid.view.memory
    · have answered : answer 100 paid.view = ResultCode.ok.word := by simp [answer, deliverable]
      have told : passedOn 100 paid.view = [Text.Utf8.decodeLossy (message paid.view.registers paid.view.memory)] := by
        simp [passedOn, deliverable]
      rw [answered, told]
      exact Dispatcher.dispatch_of_known pending affordable rfl (run_logProgram_of_deliverable deliverable)
    · have answered : answer 100 paid.view = ResultCode.oob.word := by simp [answer, deliverable]
      have told : passedOn 100 paid.view = [] := by simp [passedOn, deliverable]
      rw [answered, told]
      exact Dispatcher.dispatch_of_known pending affordable rfl (run_logProgram_of_not_deliverable deliverable)
  · have answered : answer index paid.view = ResultCode.what.word := by rw [answer, if_neg gas, if_neg log]
    have told : passedOn index paid.view = [] := by simp [passedOn, log]
    rw [answered, told, Array.appendList_nil]
    exact Dispatcher.dispatch_of_unknown pending affordable (get?_registry_of_unknown gas log)

/-- The calls of the node. Let a machine wait for any host call. It costs what `callPrice` says. If the price overdraws
the counter, then the execution ends for want of gas and nothing but the counter changes. Else the machine goes on, and
but for the counter only the result register changes, to what `answer` says. A message that the guest may read is read.
No call of the node ends an execution by a halt or a panic, and none changes the memory, the program counter or another
register. -/
theorem calls_have_their_documented_effect (pending : execution.machine.status = .hostCall index)
    (word : execution.machine.gas.balance ≤ GasCounter.maxGas) :
    let machine := execution.machine
    let dispatcher : Dispatcher String := ⟨registry, unknownCallGas⟩
    let cost := dispatcher.price index machine.registers
    let charged := machine.gas.chargeCost cost
    let after := dispatcher.dispatch index execution
    cost.amount.toNat = callPrice unknownCallGas machine.registers index ∧
    (charged.2 ≠ .ok () →
      after = ⟨{ machine with gas := charged.1, status := .outOfGas }, execution.reports⟩) ∧
    (charged.2 = .ok () →
      let view : GuestView := ⟨charged.1, machine.registers, machine.memory⟩
      after = ⟨{ machine with
          gas := charged.1
          status := .continuing
          registers := machine.registers.set resultRegister (answer index view) },
        execution.reports ++ passedOn index view⟩ ∧
        (answer 0 view).toNat = charged.1.remaining) ∧
    (let start := machine.registers.get messageAddressRegister
      let length := machine.registers.get messageLengthRegister
      Memory.Host.isReadable machine.memory start length = true →
        Memory.Host.load machine.memory start length = .ok (message machine.registers machine.memory)) ∧
    (after.machine.status ≠ .halt ∧ after.machine.status ≠ .panic) ∧ after.machine.memory = machine.memory ∧
    after.machine.pc = machine.pc ∧
    ∀ r, r ≠ resultRegister → after.machine.registers.get r = machine.registers.get r := by
  intro machine dispatcher cost charged after
  have fails : charged.2 ≠ .ok () →
      after = ⟨{ machine with gas := charged.1, status := .outOfGas }, execution.reports⟩ := by
    intro failed
    have overdrawn : (machine.pay cost.amount).gas.isOverdrawn = true := by
      rw [← Bool.not_eq_false]
      exact mt (machine.gas.charge_eq_ok_iff cost.amount).mpr failed
    exact Dispatcher.dispatch_of_overdrawn overdrawn
  have answers : charged.2 = .ok () →
      let view : GuestView := ⟨charged.1, machine.registers, machine.memory⟩
      after = ⟨{ machine with
        gas := charged.1
        status := .continuing
        registers := machine.registers.set resultRegister (answer index view) },
      execution.reports ++ passedOn index view⟩ := by
    intro succeeded view
    have affordable : (machine.pay cost.amount).gas.isOverdrawn = false :=
      (machine.gas.charge_eq_ok_iff cost.amount).mp succeeded
    exact dispatch_of_affordable unknownCallGas pending affordable
  refine ⟨amount_price unknownCallGas index machine.registers, fails, ?_, Memory.Host.load_of_isReadable, ?_⟩
  · intro succeeded view
    refine ⟨answers succeeded, UInt64.toNat_ofNat_of_lt' ?_⟩
    have less : charged.1.remaining ≤ machine.gas.remaining := (GasCounter.Charged.amount cost.amount).remaining_le
    have narrow : machine.gas.remaining ≤ GasCounter.maxGas := Int.toNat_le.mpr word
    exact Nat.lt_of_le_of_lt (Nat.le_trans less narrow) (by decide)
  · by_cases succeeded : charged.2 = .ok ()
    · rw [answers succeeded]
      refine ⟨⟨by simp, by simp⟩, rfl, rfl, ?_⟩
      intro r other
      exact Registers.get_set_of_ne _ other.symm _
    · rw [fails succeeded]
      exact ⟨⟨by simp, by simp⟩, rfl, rfl, fun _ _ => rfl⟩

end

/-- A machine that waits for its greeting to be passed on. -/
def greeting : Execution String where
  machine := { Machine.idle 1 with
    registers := (Registers.zero.set messageAddressRegister 0x10002).set messageLengthRegister 3
    memory := ⟨(∅ : PageTable).insert 16 ((Page.zeroed .read).overwrite 2 [72, 101, 121]), 0, 0⟩
    gas := .new 20
    status := .hostCall 100 }
  reports := #[]

/-- It pays one unit for each of three bytes besides the ten. -/
theorem calls_have_their_documented_effect_on_greeting :
    greeting.machine.status = .hostCall 100 ∧ greeting.machine.gas.balance ≤ GasCounter.maxGas ∧
      ((⟨registry, 10⟩ : Dispatcher String).dispatch 100 greeting).machine.gas.balance = 7 ∧
      ((⟨registry, 10⟩ : Dispatcher String).dispatch 100 greeting).machine.registers.get resultRegister = 0 ∧
      ((⟨registry, 10⟩ : Dispatcher String).dispatch 100 greeting).reports = #["Hey"] := by
  have word : greeting.machine.gas.balance ≤ GasCounter.maxGas := by decide
  obtain ⟨-, -, answers, -⟩ := @calls_have_their_documented_effect 10 greeting 100 rfl word
  obtain ⟨effect, -⟩ := answers rfl
  refine ⟨rfl, word, ?_⟩
  rw [effect]
  decide +kernel

end Node

end MeteredVm
