import MeteredVm.HostCall.Dispatch
import MeteredVm.Proofs.Machine.Steps
import Mathlib.Logic.Function.Iterate

/-!
An execution watched closely. From one moment to the next the machine makes one step, a host call begins or ends, or a
handler has one request served, so there are moments at which a handler is half done. The main statements say what can
happen between two moments, and that runs pass through these moments only.
-/

set_option autoImplicit false
set_option relaxedAutoImplicit false

namespace MeteredVm

namespace HostProgram

variable {ε α : Type}

def ended? : HostProgram ε α → Option α
  | .done value => some value
  | _ => none

/-- Serves the first request of a program: the rest of the program, the state it goes on from, and what it reported. -/
def next : HostProgram ε α → GuestView → HostProgram ε α × GuestView × List ε
  | .done value, view => (.done value, view, [])
  | .getRegister r rest, view => (rest (view.registers.get r), view, [])
  | .setRegister r value rest, view => (rest, { view with registers := view.registers.set r value }, [])
  | .readGas rest, view => (rest view.gas, view, [])
  | .chargeGas amount rest, view =>
    (rest (view.gas.charge amount).2, { view with gas := (view.gas.charge amount).1 }, [])
  | .store address payload rest, view =>
    match Memory.Host.store view.memory address payload.bytes with
    | .error error => (rest (.error error), view, [])
    | .ok memory => (rest (.ok ()), { view with memory }, [])
  | .load address length rest, view => (rest (Memory.Host.load view.memory address length), view, [])
  | .isReadable address length rest, view => (rest (Memory.Host.isReadable view.memory address length), view, [])
  | .isWriteable address length rest, view => (rest (Memory.Host.isWriteable view.memory address length), view, [])
  | .report entry rest, view => (rest, view, [entry])
  | .suspend rest, view => (rest, view, [])

theorem run_next (program : HostProgram ε α) (view : GuestView) :
    program.run view =
      let served := program.next view
      let rest := served.1.run served.2.1
      (rest.1, rest.2.1, served.2.2 ++ rest.2.2) := by
  cases program with
  | store address payload rest =>
    simp only [run, next]
    cases Memory.Host.store view.memory address payload.bytes <;> rfl
  | _ => rfl

/-- Whatever holds of programs that have ended, and of a program once it holds of it with a request less, holds of
every program. -/
theorem next_induction {motive : HostProgram ε α → Prop} (ended : ∀ value, motive (.done value))
    (asks : ∀ program, program.ended? = none → (∀ view, motive (program.next view).1) → motive program) :
    ∀ program, motive program := by
  intro program
  induction program with
  | done value => exact ended value
  | store address payload rest ih =>
    refine asks _ rfl fun view => ?_
    simp only [next]
    cases Memory.Host.store view.memory address payload.bytes with
    | error error => exact ih (.error error)
    | ok memory => exact ih (.ok ())
  | setRegister r value rest ih => exact asks _ rfl fun view => ih
  | report entry rest ih => exact asks _ rfl fun view => ih
  | suspend rest ih => exact asks _ rfl fun view => ih
  | getRegister r rest ih => exact asks _ rfl fun view => ih _
  | readGas rest ih => exact asks _ rfl fun view => ih _
  | chargeGas amount rest ih => exact asks _ rfl fun view => ih _
  | load address length rest ih => exact asks _ rfl fun view => ih _
  | isReadable address length rest ih => exact asks _ rfl fun view => ih _
  | isWriteable address length rest ih => exact asks _ rfl fun view => ih _

theorem eq_done_of_ended? {program : HostProgram ε α} {value : α} (h : program.ended? = some value) :
    program = .done value := by
  cases program with
  | done other =>
    obtain rfl : other = value := Option.some.inj h
    rfl
  | _ => exact absurd h (by simp [ended?])

end HostProgram

structure Moment (ε : Type) extends Execution ε where
  /-- What is left of the handler that is running, if one is. -/
  handler : Option (HostProgram ε (Option HostVerdict))

/-- The moment of an execution at which no handler is running. -/
def Execution.moment {ε : Type} (execution : Execution ε) : Moment ε := ⟨execution, none⟩

namespace Dispatcher

variable {ε : Type}

def price (dispatcher : Dispatcher ε) (index : UInt32) (registers : Registers) : GasCost :=
  match dispatcher.registry.get? index with
  | none => .fixed dispatcher.unknownCallGas
  | some handler => handler.cost registers

/-- A host call is paid for; then its handler begins, or it is refused if nobody serves it. -/
def call (dispatcher : Dispatcher ε) (index : UInt32) (execution : Execution ε) : Moment ε :=
  match dispatcher.registry.get? index with
  | none => (dispatcher.refuse execution).moment
  | some handler =>
    match execution.machine.chargeGas (handler.cost execution.machine.registers) with
    | (machine, .error _) => ({ execution with machine } : Execution ε).moment
    | (machine, .ok ()) => ⟨{ execution with machine }, some handler.execute⟩

def tick (dispatcher : Dispatcher ε) (moment : Moment ε) : Moment ε :=
  match moment.handler with
  | some program =>
    match program.ended? with
    | some verdict => ({ moment.toExecution with machine := moment.machine.conclude verdict } : Execution ε).moment
    | none =>
      let served := program.next moment.machine.view
      ⟨⟨moment.machine.withView served.2.1, moment.reports ++ served.2.2⟩, some served.1⟩
  | none =>
    match moment.machine.status with
    | .continuing => ({ moment.toExecution with machine := moment.machine.step } : Execution ε).moment
    | .hostCall index => dispatcher.call index moment.toExecution
    | .halt | .panic | .outOfGas => moment

/-- The moments of the execution of a machine, counted from its beginning. -/
def moments (dispatcher : Dispatcher ε) (machine : Machine) (n : Nat) : Moment ε :=
  dispatcher.tick^[n] (Execution.moment ⟨machine, #[]⟩)

theorem moments_succ (dispatcher : Dispatcher ε) (machine : Machine) (n : Nat) :
    dispatcher.moments machine (n + 1) = dispatcher.tick (dispatcher.moments machine n) :=
  Function.iterate_succ_apply' dispatcher.tick n _

/-- What happens between a moment and the next. -/
inductive Ticks (dispatcher : Dispatcher ε) (moment : Moment ε) : Moment ε → Prop where
  | rests (free : moment.handler = none) (ended : moment.machine.status.isTerminal = true) :
      Ticks dispatcher moment moment
  | steps (machine : Machine) (free : moment.handler = none) (running : moment.machine.status = .continuing)
      (stepped : moment.machine.Steps machine) :
      Ticks dispatcher moment (Execution.moment ⟨machine, moment.reports⟩)
  /-- A host call is not made, since its price overdraws the counter. -/
  | overdraws (index : UInt32) (amount : UInt64) (free : moment.handler = none)
      (pending : moment.machine.status = .hostCall index)
      (due : (dispatcher.price index moment.machine.registers).amount = amount)
      (overdrawn : (moment.machine.pay amount).gas.isOverdrawn = true) :
      Ticks dispatcher moment (Execution.moment ⟨(moment.machine.pay amount).stop .outOfGas, moment.reports⟩)
  /-- Nobody serves the host call. -/
  | refuses (index : UInt32) (amount : UInt64) (free : moment.handler = none)
      (pending : moment.machine.status = .hostCall index)
      (due : (dispatcher.price index moment.machine.registers).amount = amount)
      (unknown : dispatcher.registry.get? index = none)
      (affordable : (moment.machine.pay amount).gas.isOverdrawn = false) :
      Ticks dispatcher moment (Execution.moment
        ⟨{ moment.machine.pay amount with
            registers := moment.machine.registers.set HostCall.resultRegister ResultCode.what.word
            status := .continuing },
          moment.reports⟩)
  | begins (index : UInt32) (amount : UInt64) (handler : Handler ε) (free : moment.handler = none)
      (pending : moment.machine.status = .hostCall index)
      (due : (dispatcher.price index moment.machine.registers).amount = amount)
      (known : dispatcher.registry.get? index = some handler)
      (affordable : (moment.machine.pay amount).gas.isOverdrawn = false) :
      Ticks dispatcher moment ⟨⟨moment.machine.pay amount, moment.reports⟩, some handler.execute⟩
  | serves (program rest : HostProgram ε (Option HostVerdict)) (view : GuestView) (reports : List ε)
      (held : moment.handler = some program) (asking : program.ended? = none)
      (served : program.next moment.machine.view = (rest, view, reports)) :
      Ticks dispatcher moment ⟨⟨moment.machine.withView view, moment.reports ++ reports⟩, some rest⟩
  | concludes (verdict : Option HostVerdict) (held : moment.handler = some (.done verdict)) :
      Ticks dispatcher moment (Execution.moment ⟨moment.machine.conclude verdict, moment.reports⟩)

theorem price_of_unknown {dispatcher : Dispatcher ε} {index : UInt32} (unknown : dispatcher.registry.get? index = none)
    (registers : Registers) : dispatcher.price index registers = .fixed dispatcher.unknownCallGas := by
  rw [price, unknown]

theorem price_of_known {dispatcher : Dispatcher ε} {index : UInt32} {handler : Handler ε}
    (known : dispatcher.registry.get? index = some handler) (registers : Registers) :
    dispatcher.price index registers = handler.cost registers := by
  rw [price, known]

private theorem call_ticks (dispatcher : Dispatcher ε) {moment : Moment ε} {index : UInt32}
    (free : moment.handler = none) (pending : moment.machine.status = .hostCall index) :
    dispatcher.Ticks moment (dispatcher.call index moment.toExecution) := by
  have due : (dispatcher.price index moment.machine.registers).amount =
    (dispatcher.price index moment.machine.registers).amount := rfl
  unfold call
  cases found : dispatcher.registry.get? index with
  | none =>
    have cost := price_of_unknown found moment.machine.registers
    rw [cost] at due
    simp only [refuse]
    cases paid : (moment.machine.pay (GasCost.fixed dispatcher.unknownCallGas).amount).gas.isOverdrawn with
    | true =>
      rw [Machine.chargeGas_of_overdrawn paid]
      exact .overdraws index _ free pending (congrArg GasCost.amount cost) paid
    | false =>
      have waiting : (moment.machine.pay (GasCost.fixed dispatcher.unknownCallGas).amount).status = .hostCall index :=
        pending
      simp only [Machine.chargeGas_of_affordable paid, Machine.resume, waiting]
      exact .refuses index _ free pending (congrArg GasCost.amount cost) found paid
  | some handler =>
    have cost := price_of_known found moment.machine.registers
    cases paid : (moment.machine.pay (handler.cost moment.machine.registers).amount).gas.isOverdrawn with
    | true =>
      simp only [Machine.chargeGas_of_overdrawn paid]
      exact .overdraws index _ free pending (congrArg GasCost.amount cost) paid
    | false =>
      simp only [Machine.chargeGas_of_affordable paid]
      exact .begins index _ handler free pending (congrArg GasCost.amount cost) found paid

theorem tick_ticks (dispatcher : Dispatcher ε) (moment : Moment ε) :
    dispatcher.Ticks moment (dispatcher.tick moment) := by
  unfold tick
  cases held : moment.handler with
  | some program =>
    simp only
    cases ended : program.ended? with
    | some verdict =>
      rw [HostProgram.eq_done_of_ended? ended] at held
      exact .concludes verdict held
    | none => exact .serves program _ _ _ held ended rfl
  | none =>
    simp only
    cases status : moment.machine.status with
    | continuing => exact .steps _ held status moment.machine.step_steps
    | hostCall index => exact dispatcher.call_ticks held status
    | halt => exact .rests held (by rw [status]; rfl)
    | panic => exact .rests held (by rw [status]; rfl)
    | outOfGas => exact .rests held (by rw [status]; rfl)

theorem ticks_through_handler (dispatcher : Dispatcher ε) (program : HostProgram ε (Option HostVerdict)) :
    ∀ (machine : Machine) (reports : Array ε), ∃ n,
      dispatcher.tick^[n] ⟨⟨machine, reports⟩, some program⟩ =
        Execution.moment ⟨(machine.withView (program.run machine.view).2.1).conclude (program.run machine.view).1,
          reports ++ (program.run machine.view).2.2⟩ := by
  induction program using HostProgram.next_induction with
  | ended verdict =>
    intro machine reports
    refine ⟨1, ?_⟩
    simp [tick, HostProgram.ended?, HostProgram.run, Machine.withView, Machine.view]
  | asks program asking ih =>
    intro machine reports
    rcases served : program.next machine.view with ⟨rest, view, first⟩
    have later := ih machine.view (machine.withView view) (reports ++ first)
    rw [served] at later
    obtain ⟨n, reached⟩ := later
    have ticked : dispatcher.tick ⟨⟨machine, reports⟩, some program⟩ =
        ⟨⟨machine.withView view, reports ++ first⟩, some rest⟩ := by
      simp only [tick, asking, served]
    have viewed : (machine.withView view).view = view := rfl
    -- what the handler reports while it runs is gathered from the left, what `run` gives from the right
    have joined : reports ++ first ++ (rest.run view).2.2 = reports ++ (first ++ (rest.run view).2.2) := by
      refine Array.toList_inj.mp ?_
      simp
    refine ⟨n + 1, ?_⟩
    rw [Function.iterate_succ_apply, ticked, reached, program.run_next, served, viewed, joined]
    rfl

/-- Between two moments at which no handler is running lies one instruction or one whole host call. -/
private theorem ticks_through_advance (dispatcher : Dispatcher ε) (execution : Execution ε) :
    ∃ n, dispatcher.tick^[n] execution.moment = (dispatcher.advance execution).moment := by
  unfold advance
  cases status : execution.machine.status with
  | continuing =>
    refine ⟨1, ?_⟩
    simp [tick, Execution.moment, status]
  | hostCall index =>
    have called : dispatcher.tick execution.moment = dispatcher.call index execution := by
      simp [tick, Execution.moment, status]
    simp only [dispatch]
    cases found : dispatcher.registry.get? index with
    | none =>
      refine ⟨1, ?_⟩
      rw [Function.iterate_one, called, call, found]
    | some handler =>
      simp only [serve]
      rcases charged : execution.machine.chargeGas (handler.cost execution.machine.registers) with ⟨machine, verdict⟩
      cases verdict with
      | error error =>
        refine ⟨1, ?_⟩
        rw [Function.iterate_one, called, call, found]
        simp only [charged]
      | ok paid =>
        obtain ⟨n, reached⟩ := dispatcher.ticks_through_handler handler.execute machine execution.reports
        refine ⟨n + 1, ?_⟩
        rw [Function.iterate_succ_apply, called, call, found]
        simp only [charged, reached]
  | halt => exact ⟨0, rfl⟩
  | panic => exact ⟨0, rfl⟩
  | outOfGas => exact ⟨0, rfl⟩

theorem exists_moment_of_advances (dispatcher : Dispatcher ε) (machine : Machine) (k : Nat) :
    ∃ n, dispatcher.moments machine n = (dispatcher.advance^[k] ⟨machine, #[]⟩).moment := by
  induction k with
  | zero => exact ⟨0, rfl⟩
  | succ k ih =>
    obtain ⟨n, reached⟩ := ih
    obtain ⟨m, advanced⟩ := dispatcher.ticks_through_advance (dispatcher.advance^[k] ⟨machine, #[]⟩)
    refine ⟨m + n, ?_⟩
    rw [moments] at reached ⊢
    rw [Function.iterate_add_apply, reached, advanced, Function.iterate_succ_apply']

end Dispatcher

/-- A transition that is repeated until a state is finished is repeated this many times, up to this state. -/
structure StopsAfter {σ : Type} (finished : σ → Bool) (next : σ → σ) (first : σ) (count : Nat) (last : σ) : Prop where
  reached : next^[count] first = last
  done : finished last = true
  unfinished : ∀ k < count, finished (next^[k] first) = false

theorem exists_stopsAfter {σ : Type} {finished : σ → Bool} {next : σ → σ} {first last : σ} {fuel : Nat}
    (found : iterateUntil? finished next fuel first = some last) :
    ∃ count ≤ fuel, StopsAfter finished next first count last := by
  induction fuel generalizing first with
  | zero =>
    simp only [iterateUntil?, Option.ite_none_right_eq_some, Option.some.injEq] at found
    obtain ⟨done, rfl⟩ := found
    exact ⟨0, Nat.le_refl 0, rfl, done, fun k impossible => absurd impossible (Nat.not_lt_zero k)⟩
  | succ fuel ih =>
    rw [iterateUntil?] at found
    split at found
    · rename_i done
      obtain rfl := Option.some.inj found
      exact ⟨0, Nat.zero_le _, rfl, done, fun k impossible => absurd impossible (Nat.not_lt_zero k)⟩
    · rename_i more
      obtain ⟨count, le, stops⟩ := ih found
      refine ⟨count + 1, Nat.succ_le_succ le, stops.reached, stops.done, fun k before => ?_⟩
      cases k with
      | zero => exact Bool.not_eq_true _ ▸ more
      | succ k => exact stops.unfinished k (Nat.lt_of_succ_lt_succ before)

theorem iterateUntil?_eq_some {σ : Type} {finished : σ → Bool} {next : σ → σ} {fuel : Nat} {first last : σ}
    (h : iterateUntil? finished next fuel first = some last) : finished last = true ∧ ∃ k, last = next^[k] first := by
  obtain ⟨count, -, stops⟩ := exists_stopsAfter h
  exact ⟨stops.done, count, stops.reached.symm⟩

namespace Dispatcher

variable {ε : Type}

theorem exists_moment_of_run? {dispatcher : Dispatcher ε} {machine : Machine} {execution : Execution ε}
    (h : dispatcher.run? machine = some execution) : ∃ n, dispatcher.moments machine n = execution.moment := by
  obtain ⟨-, k, rfl⟩ := iterateUntil?_eq_some h
  exact dispatcher.exists_moment_of_advances machine k

theorem exists_moment_of_steps (dispatcher : Dispatcher ε) (machine : Machine) (k : Nat) :
    ∃ n, dispatcher.moments machine n = Execution.moment ⟨Machine.step^[k] machine, #[]⟩ := by
  induction k with
  | zero => exact ⟨0, rfl⟩
  | succ k ih =>
    obtain ⟨n, reached⟩ := ih
    rw [Function.iterate_succ_apply']
    by_cases running : (Machine.step^[k] machine).status = .continuing
    · refine ⟨n + 1, ?_⟩
      rw [moments_succ, reached]
      simp [tick, Execution.moment, running]
    -- a machine that has stopped steps to itself, so the moment reached serves again
    · have stopped : (Machine.step^[k] machine).step = Machine.step^[k] machine := if_pos running
      exact ⟨n, by rw [reached, stopped]⟩

end Dispatcher

end MeteredVm
