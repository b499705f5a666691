import MeteredVm.Proofs.Execution.Serving
import MeteredVm.Proofs.HostCall.Registration

/-!
What an execution depends on. Two dispatchers that agree on the host calls which an execution requests under the first
take it through the same moments, so nothing that is registered beside those calls shows. The main statement adds that
the order in which handlers were registered never shows either.
-/

set_option autoImplicit false
set_option relaxedAutoImplicit false

namespace MeteredVm.Dispatcher

variable {ε : Type}

/-- The execution of a machine requests a host call: the machine waits for it from the beginning, or an `ecalli` asks
for it on the way. -/
def Requests (dispatcher : Dispatcher ε) (machine : Machine) (index : UInt32) : Prop :=
  machine.status = .hostCall index ∨ ∃ n, (dispatcher.moments machine n).asks? = some index

private theorem requests_of_waits {dispatcher : Dispatcher ε} {machine : Machine} {n : Nat} {index : UInt32}
    (waits : (dispatcher.moments machine n).Waits index) : dispatcher.Requests machine index := by
  cases n with
  | zero => exact .inl waits.pending
  | succ n =>
    refine .inr ⟨n, ?_⟩
    have waiting := waits.waiting?
    rwa [moments_succ, waiting?_tick] at waiting

private theorem requests_of_pending {dispatcher : Dispatcher ε} {machine : Machine} {k : Nat} {index : UInt32}
    (pending : (dispatcher.advance^[k] ⟨machine, #[]⟩).machine.status = .hostCall index) :
    dispatcher.Requests machine index := by
  obtain ⟨n, reached⟩ := dispatcher.exists_moment_of_advances machine k
  have waits : (dispatcher.moments machine n).Waits index := by
    rw [reached]
    exact ⟨rfl, pending⟩
  exact requests_of_waits waits

section

variable {first second : Dispatcher ε} (samePrice : second.unknownCallGas = first.unknownCallGas)

include samePrice

private theorem dispatch_congr {index : UInt32} (sameHandler : second.registry.get? index = first.registry.get? index)
    (execution : Execution ε) : second.dispatch index execution = first.dispatch index execution := by
  simp only [dispatch, refuse, sameHandler, samePrice]

private theorem call_congr {index : UInt32} (sameHandler : second.registry.get? index = first.registry.get? index)
    (execution : Execution ε) : second.call index execution = first.call index execution := by
  simp only [call, refuse, sameHandler, samePrice]

private theorem advance_congr {execution : Execution ε}
    (agree : ∀ index, execution.machine.status = .hostCall index →
      second.registry.get? index = first.registry.get? index) :
    second.advance execution = first.advance execution := by
  cases status : execution.machine.status with
  | hostCall index =>
    simp only [advance, status]
    exact dispatch_congr samePrice (agree index status) execution
  | _ => simp only [advance, status]

private theorem tick_congr {moment : Moment ε}
    (agree : ∀ index, moment.Waits index → second.registry.get? index = first.registry.get? index) :
    second.tick moment = first.tick moment := by
  cases held : moment.handler with
  | some program => simp only [tick, held]
  | none =>
    cases status : moment.machine.status with
    | hostCall index =>
      simp only [tick, held, status]
      exact call_congr samePrice (agree index ⟨held, status⟩) moment.toExecution
    | _ => simp only [tick, held, status]

variable {machine : Machine}
  (agree : ∀ index, first.Requests machine index → second.registry.get? index = first.registry.get? index)

include agree

/-- The two executions stay in step: what the second looks up next, the first has requested. -/
private theorem moments_congr (n : Nat) : second.moments machine n = first.moments machine n := by
  induction n with
  | zero => rfl
  | succ n ih =>
    rw [moments_succ, moments_succ, ih]
    exact tick_congr samePrice fun index waits => agree index (requests_of_waits waits)

private theorem advances_congr (k : Nat) : second.advance^[k] ⟨machine, #[]⟩ = first.advance^[k] ⟨machine, #[]⟩ := by
  induction k with
  | zero => rfl
  | succ k ih =>
    rw [Function.iterate_succ_apply', Function.iterate_succ_apply', ih]
    exact advance_congr samePrice fun index pending => agree index (requests_of_pending pending)

private theorem ends_congr (last : Execution ε) : second.Ends machine last ↔ first.Ends machine last := by
  simp only [Ends, advances_congr samePrice agree]

private theorem run?_congr : second.run? machine = first.run? machine := by
  refine Option.ext fun last => ?_
  simp only [run?_eq_some_iff, advances_congr samePrice agree]

private theorem begun_congr (n : Nat) : second.begun machine n = first.begun machine n := by
  simp only [begun, moments_congr samePrice agree]

end

/-- Two executions are the same: they pass through the same moments, the same handlers begin, and they end alike, with
the same machine, from which the result is read off. -/
structure SameExecution (first second : Dispatcher ε) (machine : Machine) : Prop where
  moments : ∀ n, second.moments machine n = first.moments machine n
  begun : ∀ n, second.begun machine n = first.begun machine n
  ends : ∀ last, second.Ends machine last ↔ first.Ends machine last
  run : second.run? machine = first.run? machine

private theorem sameExecution_of_agree {first second : Dispatcher ε} {machine : Machine}
    (samePrice : second.unknownCallGas = first.unknownCallGas)
    (agree : ∀ index, first.Requests machine index → second.registry.get? index = first.registry.get? index) :
    SameExecution first second machine where
  moments := moments_congr samePrice agree
  begun := begun_congr samePrice agree
  ends := ends_congr samePrice agree
  run := run?_congr samePrice agree

/-- An execution depends on the handlers that it asks for and on nothing else of the table. It is the same under every
dispatcher that has the same price for unknown calls and, at each index that the execution requests, the same handler or
none as well. Handlers with distinct indices can be registered in any order: each is then found under its index and
nothing else is, and every execution is the same. What is registered at a taken index is refused, and whatever is
attempted, the first stays. -/
theorem executions_depend_on_requested_handlers :
    (∀ (first second : Dispatcher ε) (machine : Machine), second.unknownCallGas = first.unknownCallGas →
      (∀ index, first.Requests machine index → second.registry.get? index = first.registry.get? index) →
        SameExecution first second machine) ∧
    (∀ handlers : List (UInt32 × Handler ε),
      ((∃ registry, Registry.empty.registerAll handlers = .ok registry) ↔ (handlers.map Prod.fst).Nodup) ∧
      ∀ registry, Registry.empty.registerAll handlers = .ok registry →
        (∀ index handler, registry.get? index = some handler ↔ (index, handler) ∈ handlers) ∧
        ∀ order, order.Perm handlers → ∃ other, Registry.empty.registerAll order = .ok other ∧
          ∀ price machine, SameExecution ⟨registry, price⟩ ⟨other, price⟩ machine) ∧
    ∀ (registry : Registry (Handler ε)) (index : UInt32) (first : Handler ε), registry.get? index = some first →
      (∀ second, registry.register index second = .error (.registeredTwice index)) ∧
      ∀ attempts, (registry.attemptAll attempts).get? index = some first := by
  refine ⟨fun first second machine samePrice agree => sameExecution_of_agree samePrice agree, fun handlers =>
    ⟨?_, fun registry filled => ⟨Registry.get?_of_registerAll filled, fun order perm => ?_⟩⟩,
    fun registry index first taken => ⟨Registry.register_of_taken taken, fun attempts => ?_⟩⟩
  · exact (Registry.empty.exists_registerAll_iff handlers).trans (and_iff_left fun _ _ => rfl)
  · obtain ⟨other, filled', same⟩ := Registry.registerAll_of_perm perm filled
    exact ⟨other, filled', fun price machine => sameExecution_of_agree rfl fun index _ => same index⟩
  · rw [Registry.get?_attemptAll, taken, Option.some_or]

/-- The dispatcher of the draining host call with another handler beside it. -/
def crowded : Dispatcher UInt64 where
  registry :=
    ⟨[(8, ⟨fun _ => .fixed 0, .done (some .panic)⟩),
      (7, ⟨fun _ => .fixed 3,
        .getRegister (.numbered 8) fun value => .report value (.setRegister (.numbered 8) 0 (.done none))⟩)], by decide⟩
  unknownCallGas := 10

/-- A program that asks for the draining call and for one that nobody serves does not see the handler beside. -/
theorem executions_depend_on_requested_handlers_beside_another :
    let started := (Machine.idle 1).reset #[10, 7, 0, 0, 0, 10, 9, 0, 0, 0] 0 30 none none
    (∀ index, draining.Requests started index → crowded.registry.get? index = draining.registry.get? index) ∧
      crowded.run? started = draining.run? started ∧
      (∃ handler, crowded.registry.get? 8 = some handler ∧
        (crowded.registry.attemptAll [(8, ⟨fun _ => .fixed 1, .done none⟩)]).get? 8 = some handler) ∧
      ∃ registry other, Registry.empty.registerAll crowded.registry.entries = .ok registry ∧
        Registry.empty.registerAll crowded.registry.entries.reverse = .ok other ∧
        SameExecution ⟨registry, 10⟩ ⟨other, 10⟩ started := by
  intro started
  obtain ⟨depends, orderless, firstStays⟩ := @executions_depend_on_requested_handlers UInt64
  have unasked : ¬ draining.Requests started 8 := by
    rintro (pending | ⟨n, asks⟩)
    · cases pending
    · have ended : ∀ m, 9 ≤ m → (draining.moments started m).asks? = none := fun m late => by
        rw [draining.moments_of_ended (by decide +kernel) (by decide +kernel) late]
        decide +kernel
      have before : ∀ m < 9, (draining.moments started m).asks? ≠ some 8 := by decide +kernel
      rcases Nat.lt_or_ge n 9 with early | late
      · exact before n early asks
      · rw [ended n late] at asks
        cases asks
  have agree : ∀ index, draining.Requests started index →
      crowded.registry.get? index = draining.registry.get? index := by
    intro index requests
    have other : (index == 8) = false := by
      refine beq_eq_false_iff_ne.mpr ?_
      rintro rfl
      exact unasked requests
    simp only [Registry.get?, crowded, draining, List.lookup_cons, other]
  obtain ⟨accepted, same⟩ := orderless crowded.registry.entries
  obtain ⟨registry, filled⟩ := accepted.mpr crowded.registry.distinct
  obtain ⟨-, inAnyOrder⟩ := same registry filled
  obtain ⟨other, filled', alike⟩ := inAnyOrder crowded.registry.entries.reverse (List.reverse_perm _)
  exact ⟨agree, (depends draining crowded started rfl agree).run,
    ⟨_, rfl, (firstStays crowded.registry 8 _ rfl).2 _⟩, registry, other, filled, filled', alike 10 started⟩

end MeteredVm.Dispatcher
