import MeteredVm.Proofs.Execution.Serving

/-!
How often an execution does what. The states that it passes through between instructions and host calls are counted by
what happens next in them. The main statement is that an execution that pays for its instructions ends after no more
steps than its gas can pay for, and one, and serves a host call for each that was asked for.
-/

set_option autoImplicit false
set_option relaxedAutoImplicit false

namespace MeteredVm

section

variable {σ : Type}

/-- How many of the states before the one with a number pass a test. -/
def tally (next : σ → σ) (test : σ → Bool) (first : σ) (n : Nat) : Nat :=
  (List.range n).countP fun k => test (next^[k] first)

theorem tally_succ (next : σ → σ) (test : σ → Bool) (first : σ) (n : Nat) :
    tally next test first (n + 1) = tally next test first n + if test (next^[n] first) then 1 else 0 := by
  rw [tally, List.range_succ, List.countP_append, List.countP_singleton]
  rfl

private theorem tally_succ_eq {next : σ → σ} {test before : σ → Bool}
    (follows : ∀ state, test (next state) = before state) (first : σ) (n : Nat) :
    tally next test first (n + 1) = tally next before first n + if test first then 1 else 0 := by
  induction n with
  | zero =>
    rw [tally_succ]
    rfl
  | succ n ih =>
    have last : test (next^[n + 1] first) = before (next^[n] first) := by
      rw [Function.iterate_succ_apply', follows]
    rw [tally_succ, ih, tally_succ, last]
    omega

/-- A quantity that never grows, and shrinks by a price with each state that passes a test, bounds how many do. -/
private theorem tally_mul_add_le {next : σ → σ} {test : σ → Bool} {first : σ} (kept : σ → Prop) (quantity : σ → Nat)
    (price : Nat) (keeps : ∀ state, kept state → kept (next state))
    (pays : ∀ state, kept state → quantity (next state) + (if test state then price else 0) ≤ quantity state)
    (holds : kept first) (n : Nat) :
    tally next test first n * price + quantity (next^[n] first) ≤ quantity first := by
  have both : kept (next^[n] first) ∧
      tally next test first n * price + quantity (next^[n] first) ≤ quantity first := by
    induction n with
    | zero => exact ⟨holds, by simp [tally]⟩
    | succ n ih =>
      obtain ⟨now, spent⟩ := ih
      have paid := pays _ now
      rw [Function.iterate_succ_apply', tally_succ]
      refine ⟨keeps _ now, ?_⟩
      by_cases passes : test (next^[n] first) = true
      · rw [if_pos passes] at paid ⊢
        rw [Nat.add_mul, Nat.one_mul]
        omega
      · rw [if_neg passes] at paid ⊢
        rw [Nat.add_zero] at paid ⊢
        omega
  exact both.2

end

namespace Machine

variable {machine after : Machine}

/-- The number of steps that a machine can still take before its gas runs out, the step that finds it run out included.
-/
def stepsLeft (machine : Machine) : Nat :=
  if machine.status.isTerminal then 0 else machine.gas.remaining / machine.instructionGas.toNat + 1

/-- Whether the next step executes an instruction: there is one, and its price is covered. -/
def executesNext (machine : Machine) : Bool :=
  machine.isRunning && (decode machine.program machine.pc).isOk &&
    !(machine.pay machine.instructionGas.toUInt64).gas.isOverdrawn

private theorem isRunning_iff : machine.isRunning = true ↔ machine.status = .continuing := beq_iff_eq

private theorem stepsLeft_le (machine : Machine) :
    machine.stepsLeft ≤ machine.gas.remaining / machine.instructionGas.toNat + 1 := by
  unfold stepsLeft
  split
  · exact Nat.zero_le _
  · exact Nat.le_refl _

private theorem stepsLeft_of_unfinished (unfinished : machine.status.isTerminal = false) :
    machine.stepsLeft = machine.gas.remaining / machine.instructionGas.toNat + 1 := by
  rw [stepsLeft, unfinished]
  rfl

theorem instructionGas_pos (metered : machine.instructionGas ≠ 0) : 0 < machine.instructionGas.toNat := by
  rw [Nat.pos_iff_ne_zero, ne_eq, ← UInt32.toNat_zero, UInt32.toNat_inj]
  exact metered

private theorem Steps.stepsLeft_lt (h : machine.Steps after) (running : machine.status = .continuing)
    (metered : machine.instructionGas ≠ 0) : after.stepsLeft < machine.stepsLeft := by
  have now : machine.stepsLeft = machine.gas.remaining / machine.instructionGas.toNat + 1 :=
    stepsLeft_of_unfinished (by rw [running]; rfl)
  cases h with
  | stays stopped => exact absurd running stopped
  | undecodable =>
    rw [now]
    exact Nat.succ_pos _
  | unaffordable =>
    rw [now]
    exact Nat.succ_pos _
  | executes instruction next after _ _ affordable executed =>
    have paid := GasCounter.remaining_deduct affordable
    -- the price is taken off what is left, so the quotient falls by one
    have once : machine.gas.remaining / machine.instructionGas.toNat =
        (machine.gas.deduct machine.instructionGas.toUInt64).remaining / machine.instructionGas.toNat + 1 := by
      rw [← paid, Nat.add_div_right _ (instructionGas_pos metered)]
    have later : after.stepsLeft ≤ after.gas.remaining / after.instructionGas.toNat + 1 := after.stepsLeft_le
    rw [executed.gas_eq, executed.instructionGas_eq] at later
    rw [now, once]
    exact Nat.lt_succ_of_le later

private theorem Steps.remaining_le (h : machine.Steps after) :
    after.gas.remaining + (if machine.executesNext then machine.instructionGas.toNat else 0) ≤
      machine.gas.remaining := by
  unfold executesNext
  cases h with
  | stays stopped =>
    have idle : machine.isRunning = false := by simpa [isRunning] using stopped
    simp [idle]
  | undecodable error running failed =>
    simp [failed, Except.isOk, Except.toBool, stop]
  | unaffordable instruction next running decoded overdrawn =>
    have charged : machine.gas.Charged _ (machine.pay machine.instructionGas.toUInt64).gas := .amount _
    rw [overdrawn, Bool.not_true, Bool.and_false, if_neg Bool.false_ne_true]
    exact charged.remaining_le
  | executes instruction next after running decoded affordable executed =>
    have paid := GasCounter.remaining_deduct affordable
    have same : after.gas.remaining = (machine.gas.deduct machine.instructionGas.toUInt64).remaining := by
      rw [executed.gas_eq]
      rfl
    have runs : machine.isRunning = true := isRunning_iff.mpr running
    simp only [runs, decoded, affordable, Except.isOk, Except.toBool, Bool.not_false, Bool.and_self, if_true, same]
    exact Nat.le_of_eq paid

private theorem run?_isSome (metered : machine.instructionGas ≠ 0) : machine.run?.isSome = true := by
  refine iterateUntil?_isSome (fun m : Machine => m.instructionGas ≠ 0) stepsLeft ?_ ?_ _ _ metered ?_
  · intro m kept
    rw [m.step_steps.instructionGas_eq]
    exact kept
  · intro m kept unfinished
    have running : m.isRunning = true := by simpa using unfinished
    exact m.step_steps.stepsLeft_lt (isRunning_iff.mp running) kept
  · rw [stepAllowance, if_neg metered]
    exact machine.stepsLeft_le

end Machine

namespace Dispatcher

variable {ε : Type} (dispatcher : Dispatcher ε) {machine : Machine}

/-- The number of steps that the machine makes before the state with a number. -/
def stepCount (machine : Machine) : Nat → Nat :=
  tally dispatcher.advance (fun execution => execution.machine.isRunning) ⟨machine, #[]⟩

/-- The number of instructions that are executed before the state with a number. -/
def executedCount (machine : Machine) : Nat → Nat :=
  tally dispatcher.advance (fun execution => execution.machine.executesNext) ⟨machine, #[]⟩

/-- The number of instructions that are executed and ask for a host call, before the state with a number. -/
def askedCount (machine : Machine) : Nat → Nat :=
  tally dispatcher.advance (fun execution => execution.machine.asks?.isSome) ⟨machine, #[]⟩

/-- The number of host calls that are dispatched before the state with a number. -/
def callCount (machine : Machine) : Nat → Nat :=
  tally dispatcher.advance (fun execution => execution.machine.status.pendingCall?.isSome) ⟨machine, #[]⟩

private theorem pendingCall?_advance (execution : Execution ε) :
    (dispatcher.advance execution).machine.status.pendingCall? = execution.machine.asks? := by
  unfold advance
  cases status : execution.machine.status with
  | continuing => exact Machine.pendingCall?_step status
  | hostCall index =>
    have answered := (dispatcher.dispatch_answered index execution).answered
    simp only [answered, Machine.asks?, status]
  | halt => simp [Machine.asks?, status, Status.pendingCall?]
  | panic => simp [Machine.asks?, status, Status.pendingCall?]
  | outOfGas => simp [Machine.asks?, status, Status.pendingCall?]

private theorem stepsLeft_advance {execution : Execution ε} (metered : execution.machine.instructionGas ≠ 0) :
    (dispatcher.advance execution).machine.stepsLeft + (if execution.machine.isRunning then 1 else 0) ≤
      execution.machine.stepsLeft := by
  cases status : execution.machine.status with
  | continuing =>
    have less := execution.machine.step_steps.stepsLeft_lt status metered
    have running : execution.machine.isRunning = true := Machine.isRunning_iff.mpr status
    rw [if_pos running]
    simp only [advance, status]
    exact less
  | hostCall index =>
    have answered := dispatcher.dispatch_answered index execution
    have later := (dispatcher.dispatch index execution).machine.stepsLeft_le
    have now : execution.machine.stepsLeft =
        execution.machine.gas.remaining / execution.machine.instructionGas.toNat + 1 :=
      Machine.stepsLeft_of_unfinished (by rw [status]; rfl)
    have less : (dispatcher.dispatch index execution).machine.gas.remaining / execution.machine.instructionGas.toNat ≤
        execution.machine.gas.remaining / execution.machine.instructionGas.toNat :=
      Nat.div_le_div_right answered.remaining_le
    rw [answered.instructionGas_eq] at later
    simp only [advance, status, Machine.isRunning, reduceCtorEq, beq_iff_eq, if_false]
    omega
  | halt => simp [advance, status, Machine.isRunning]
  | panic => simp [advance, status, Machine.isRunning]
  | outOfGas => simp [advance, status, Machine.isRunning]

private theorem remaining_advance (execution : Execution ε) :
    (dispatcher.advance execution).machine.gas.remaining +
        (if execution.machine.executesNext then execution.machine.instructionGas.toNat else 0) ≤
      execution.machine.gas.remaining := by
  cases status : execution.machine.status with
  | continuing =>
    simp only [advance, status]
    exact execution.machine.step_steps.remaining_le
  | hostCall index =>
    have answered := dispatcher.dispatch_answered index execution
    simpa [advance, status, Machine.executesNext, Machine.isRunning] using answered.remaining_le
  | halt => simp [advance, status, Machine.executesNext, Machine.isRunning]
  | panic => simp [advance, status, Machine.executesNext, Machine.isRunning]
  | outOfGas => simp [advance, status, Machine.executesNext, Machine.isRunning]

private theorem stepCount_le (metered : machine.instructionGas ≠ 0) (n : Nat) :
    dispatcher.stepCount machine n ≤ machine.gas.remaining / machine.instructionGas.toNat + 1 := by
  have bounded : dispatcher.stepCount machine n * 1 + (dispatcher.advance^[n] ⟨machine, #[]⟩).machine.stepsLeft ≤
      machine.stepsLeft :=
    tally_mul_add_le (fun execution : Execution ε => execution.machine.instructionGas ≠ 0)
      (fun execution => execution.machine.stepsLeft) 1
      (fun execution kept => (dispatcher.instructionGas_advance execution).symm ▸ kept)
      (fun execution kept => dispatcher.stepsLeft_advance kept) metered n
  have atFirst := machine.stepsLeft_le
  omega

theorem executedCount_mul_le (machine : Machine) (n : Nat) :
    dispatcher.executedCount machine n * machine.instructionGas.toNat ≤ machine.gas.remaining := by
  have bounded : dispatcher.executedCount machine n * machine.instructionGas.toNat +
      (dispatcher.advance^[n] ⟨machine, #[]⟩).machine.gas.remaining ≤ machine.gas.remaining :=
    tally_mul_add_le (fun execution : Execution ε => execution.machine.instructionGas = machine.instructionGas)
      (fun execution => execution.machine.gas.remaining) machine.instructionGas.toNat
      (fun execution kept => (dispatcher.instructionGas_advance execution).trans kept)
      (fun execution kept => kept ▸ dispatcher.remaining_advance execution) rfl n
  exact Nat.le_trans (Nat.le_add_right _ _) bounded

private theorem stepCount_add_callCount {count : Nat}
    (unfinished : ∀ k < count, isFinished (dispatcher.advance^[k] ⟨machine, #[]⟩) = false) :
    dispatcher.stepCount machine count + dispatcher.callCount machine count = count := by
  induction count with
  | zero => rfl
  | succ count ih =>
    have before := ih fun k earlier => unfinished k (Nat.lt_succ_of_lt earlier)
    have last := unfinished count (Nat.lt_succ_self count)
    rw [stepCount, callCount, tally_succ, tally_succ, ← stepCount, ← callCount]
    generalize dispatcher.advance^[count] ⟨machine, #[]⟩ = execution at last ⊢
    cases status : execution.machine.status with
    | continuing =>
      simp only [Machine.isRunning, status, Status.pendingCall?, beq_self_eq_true, Option.isSome_none, if_true,
        Bool.false_eq_true, if_false]
      omega
    | hostCall index =>
      simp only [Machine.isRunning, status, Status.pendingCall?, reduceCtorEq, beq_iff_eq, Option.isSome_some, if_true,
        if_false]
      omega
    | halt => simp [isFinished, status, Status.isTerminal] at last
    | panic => simp [isFinished, status, Status.isTerminal] at last
    | outOfGas => simp [isFinished, status, Status.isTerminal] at last

private theorem callCount_of_finished {count : Nat}
    (finished : isFinished (dispatcher.advance^[count] ⟨machine, #[]⟩) = true) :
    dispatcher.callCount machine count =
      dispatcher.askedCount machine count + if machine.status.pendingCall?.isSome then 1 else 0 := by
  have follows : ∀ execution : Execution ε, (dispatcher.advance execution).machine.status.pendingCall?.isSome =
      execution.machine.asks?.isSome := fun execution => by rw [pendingCall?_advance]
  have shifted : dispatcher.callCount machine (count + 1) =
      dispatcher.askedCount machine count + if machine.status.pendingCall?.isSome then 1 else 0 :=
    tally_succ_eq follows (⟨machine, #[]⟩ : Execution ε) count
  -- at its end an execution has no call pending, so counting one state further adds none
  have unasked : (dispatcher.advance^[count] ⟨machine, #[]⟩).machine.status.pendingCall?.isSome = false := by
    generalize dispatcher.advance^[count] ⟨machine, #[]⟩ = execution at finished ⊢
    unfold isFinished at finished
    cases status : execution.machine.status with
    | hostCall index => simp [status, Status.isTerminal] at finished
    | _ => rfl
  rw [callCount, tally_succ, if_neg (by rw [unasked]; decide), Nat.add_zero] at shifted
  exact shifted

/-- Runs that pay for their instructions end within their gas. A machine alone stops by itself, after at most as many
steps as the gas left can pay for and one; with its host calls, whatever they do, it comes to an end after no more steps
than that altogether, and every host call that was dispatched was asked for by an instruction that was executed, but for
one that may have been pending from the beginning. -/
theorem metered_runs_end_within_gas (machine : Machine) (metered : 1 ≤ machine.instructionGas) :
    let most := machine.gas.balance.toNat / machine.instructionGas.toNat + 1
    (∃ count last, machine.run? = some last ∧
      StopsAfter (fun now => !now.isRunning) Machine.step machine count last ∧ count ≤ most) ∧
    ∃ count last, dispatcher.run? machine = some last ∧
      StopsAfter isFinished dispatcher.advance ⟨machine, #[]⟩ count last ∧
      dispatcher.stepCount machine count + dispatcher.callCount machine count = count ∧
      dispatcher.stepCount machine count ≤ most ∧
      dispatcher.callCount machine count =
        dispatcher.askedCount machine count + if machine.status.pendingCall?.isSome then 1 else 0 := by
  intro most
  have priced : machine.instructionGas ≠ 0 := by
    intro free
    rw [free] at metered
    exact absurd metered (by decide)
  constructor
  · obtain ⟨last, ran⟩ := Option.isSome_iff_exists.mp (Machine.run?_isSome priced)
    obtain ⟨count, within, stops⟩ := exists_stopsAfter ran
    rw [Machine.stepAllowance, if_neg priced] at within
    exact ⟨count, last, ran, stops, within⟩
  · obtain ⟨last, ran⟩ := Option.isSome_iff_exists.mp (dispatcher.run?_isSome priced)
    obtain ⟨count, -, stops⟩ := exists_stopsAfter ran
    have finished := stops.done
    rw [← stops.reached] at finished
    exact ⟨count, last, ran, stops, dispatcher.stepCount_add_callCount stops.unfinished,
      dispatcher.stepCount_le priced count, dispatcher.callCount_of_finished finished⟩

/-- A host call that costs nothing to make, charges two for itself and lets the program go on. -/
def taking : Dispatcher Unit := ⟨⟨[(7, ⟨fun _ => .fixed 0, .chargeGas 2 fun _ => .done none⟩)], by decide⟩, 0⟩

/-- A program that makes a host call over and over, begun while that call is pending. It runs out of gas after a host
call has overdrawn the counter. -/
theorem metered_runs_end_within_gas_of_looping_program :
    let started : Machine :=
      { (Machine.idle 3).reset #[10, 7, 0, 0, 0, 40, 0, 0, 0, 0] 5 20 none none with status := .hostCall 7 }
    1 ≤ started.instructionGas ∧ ∃ count last, taking.run? started = some last ∧
      last.machine.result.outcome = .outOfGas ∧ taking.stepCount started count ≤ 7 ∧
      taking.callCount started count = taking.askedCount started count + 1 := by
  intro started
  have outcome : (taking.run? started).map (fun last => last.machine.result.outcome) = some .outOfGas := by
    decide +kernel
  have metered : 1 ≤ started.instructionGas := by decide
  obtain ⟨-, count, last, ran, -, -, steps, calls⟩ := metered_runs_end_within_gas taking started metered
  have most : started.gas.balance.toNat / started.instructionGas.toNat + 1 = 7 := by decide
  rw [ran] at outcome
  exact ⟨metered, count, last, ran, Option.some.inj outcome, most ▸ steps, calls⟩

end Dispatcher

end MeteredVm
