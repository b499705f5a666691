import MeteredVm.Proofs.Execution.Endings
import MeteredVm.Proofs.Execution.Termination
import MeteredVm.Proofs.Instruction.Extent

/-!
Which handlers run, and when. The host calls that a program asks for and the handlers that begin are both read off the
moments of an execution, each from two moments in a row. The main statement is that the handlers that begin are those of
the calls that were asked for and paid, in the same order and each once, and says what every call makes of the
execution.
-/

set_option autoImplicit false
set_option relaxedAutoImplicit false

namespace MeteredVm

namespace Machine

/-- The host call that the next step asks for: the one whose instruction is there and is paid for. -/
def asks? (machine : Machine) : Option UInt32 :=
  match machine.status, decode machine.program machine.pc with
  | .continuing, .ok (.ecalli index, _) =>
    if (machine.pay machine.instructionGas.toUInt64).gas.isOverdrawn then none else some index
  | _, _ => none

/-- How a machine that waits for a host call came to it by a step of a machine before. -/
structure Asked (before : Machine) (index : UInt32) (after : Machine) : Prop where
  asks : before.asks? = some index
  running : before.status = .continuing
  decoded : decode before.program before.pc = .ok (.ecalli index, after.pc)
  program : after.program = before.program
  registers : after.registers = before.registers
  memory : after.memory = before.memory
  gas : after.gas = before.gas.deduct before.instructionGas.toUInt64
  /-- The program counter stands just behind the instruction, to which it may have come around. -/
  behind : decode after.program (after.pc - 5) = .ok (.ecalli index, after.pc)
  next : after.program.size < UInt32.size → after.pc.toNat = before.pc.toNat + 5

private theorem pendingCall?_jumpTo {machine : Machine} (running : machine.status = .continuing) (target : UInt32) :
    (machine.jumpTo target).status.pendingCall? = none := by
  unfold jumpTo
  split
  · simp [running, Status.pendingCall?]
  · rfl

private theorem pendingCall?_loadFrom {machine : Machine} (running : machine.status = .continuing) (kind : LoadKind)
    (dst : Reg) (address next : UInt32) : (machine.loadFrom kind dst address next).status.pendingCall? = none := by
  unfold loadFrom
  split
  · rfl
  · simp [assign, running, Status.pendingCall?]

private theorem pendingCall?_storeTo {machine : Machine} (running : machine.status = .continuing) (kind : StoreKind)
    (value : UInt64) (address next : UInt32) :
    (machine.storeTo kind value address next).status.pendingCall? = none := by
  unfold storeTo
  split
  · rfl
  · simp [running, Status.pendingCall?]

private theorem pendingCall?_growHeap {machine : Machine} (running : machine.status = .continuing) (dst : Reg)
    (size : UInt64) (next : UInt32) : (machine.growHeap dst size next).status.pendingCall? = none := by
  simp only [growHeap]
  split <;> simp [assign, running, Status.pendingCall?]

private theorem eq_ecalli_of_pendingCall? {machine : Machine} {next : UInt32} {instruction : Instruction Reg}
    {index : UInt32} (running : machine.status = .continuing)
    (pending : (machine.execute next instruction).status.pendingCall? = some index) : instruction = .ecalli index := by
  cases instruction with
  | ecalli other =>
    obtain rfl : other = index := Option.some.inj pending
    rfl
  | jump target => simp [execute, pendingCall?_jumpTo running] at pending
  | jumpInd base offset =>
    simp only [execute] at pending
    split at pending
    · cases pending
    · simp [pendingCall?_jumpTo running] at pending
  | branch condition a b target =>
    simp only [execute] at pending
    split at pending
    · simp [pendingCall?_jumpTo running] at pending
    · simp [running, Status.pendingCall?] at pending
  | load kind dst address => simp [execute, pendingCall?_loadFrom running] at pending
  | loadInd kind dst base offset => simp [execute, pendingCall?_loadFrom running] at pending
  | store kind src address => simp [execute, pendingCall?_storeTo running] at pending
  | storeInd kind src base offset => simp [execute, pendingCall?_storeTo running] at pending
  | sbrk dst size => simp [execute, pendingCall?_growHeap running] at pending
  | trap => cases pending
  | _ => simp [execute, assign, running, Status.pendingCall?] at pending

theorem pendingCall?_step {machine : Machine} (running : machine.status = .continuing) :
    machine.step.status.pendingCall? = machine.asks? := by
  cases decoded : decode machine.program machine.pc with
  | error error =>
    rw [step_of_undecodable running decoded, asks?, running, decoded]
    rfl
  | ok found =>
    obtain ⟨instruction, next⟩ := found
    cases paid : (machine.pay machine.instructionGas.toUInt64).gas.isOverdrawn with
    | true =>
      rw [step_of_overdrawn running decoded paid, asks?, running, decoded]
      cases instruction <;> simp [paid, stop, Status.pendingCall?]
    | false =>
      rw [step_of_affordable running decoded paid]
      cases pending : ((machine.pay machine.instructionGas.toUInt64).execute next instruction).status.pendingCall? with
      | some index =>
        have still : (machine.pay machine.instructionGas.toUInt64).status = .continuing := running
        obtain rfl := eq_ecalli_of_pendingCall? still pending
        simp [asks?, running, decoded, paid]
      | none =>
        cases instruction with
        | ecalli index => cases pending
        | _ => simp [asks?, running, decoded]

private theorem asked_step {machine : Machine} {index : UInt32} (asks : machine.asks? = some index) :
    machine.Asked index machine.step := by
  have found : machine.status = .continuing ∧ ∃ next, decode machine.program machine.pc = .ok (.ecalli index, next) ∧
      (machine.pay machine.instructionGas.toUInt64).gas.isOverdrawn = false := by
    unfold asks? at asks
    split at asks
    · rename_i other next running decoded
      split at asks
      · cases asks
      · rename_i paid
        obtain rfl := Option.some.inj asks
        exact ⟨running, next, decoded, Bool.not_eq_true _ ▸ paid⟩
    · cases asks
  obtain ⟨running, next, decoded, paid⟩ := found
  have stepped : machine.step = (machine.pay machine.instructionGas.toUInt64).execute next (.ecalli index) :=
    step_of_affordable running decoded paid
  have extent := extent_of_decode decoded
  obtain ⟨inside, behind⟩ : machine.pc.toNat + 5 ≤ machine.program.size ∧ next = UInt32.ofNat (machine.pc.toNat + 5) :=
    extent
  have back : next - 5 = machine.pc := by
    rw [behind, UInt32.ofNat_add, UInt32.ofNat_toNat]
    exact UInt32.add_sub_cancel _ _
  rw [stepped]
  refine ⟨asks, running, decoded, rfl, rfl, rfl, rfl, ?_, fun small => ?_⟩
  · change decode machine.program (next - 5) = .ok (.ecalli index, next)
    rw [back]
    exact decoded
  · change next.toNat = machine.pc.toNat + 5
    rw [behind]
    exact UInt32.toNat_ofNat_of_lt' (Nat.lt_of_le_of_lt inside small)

end Machine

/-- The status in which a machine goes on, or not, after a handler. -/
def HostVerdict.status : Option HostVerdict → Status
  | none => .continuing
  | some .halt => .halt
  | some .panic => .panic

private theorem Machine.conclude_of_pending {machine : Machine} {index : UInt32}
    (pending : machine.status = .hostCall index)
    (verdict : Option HostVerdict) : machine.conclude verdict = machine.stop (HostVerdict.status verdict) := by
  cases verdict with
  | none => exact conclude_none pending
  | some verdict => cases verdict <;> rfl

/-- A handler that begins, and the guest state that it is given. -/
structure Beginning (ε : Type) where
  program : HostProgram ε (Option HostVerdict)
  view : GuestView

/-- What a handler that begins will report. -/
def Beginning.reports {ε : Type} (beginning : Beginning ε) : List ε := (beginning.program.run beginning.view).2.2

namespace Moment

variable {ε : Type}

structure Waits (moment : Moment ε) (index : UInt32) : Prop where
  free : moment.handler = none
  pending : moment.machine.status = .hostCall index

/-- The host call that nobody serves yet. -/
def waiting? (moment : Moment ε) : Option UInt32 :=
  match moment.handler with
  | none => moment.machine.status.pendingCall?
  | some _ => none

/-- The host call that is asked for between the moment and the next. -/
def asks? (moment : Moment ε) : Option UInt32 :=
  match moment.handler with
  | none => moment.machine.asks?
  | some _ => none

/-- The handler that begins between a moment and the next. -/
def begins? (before after : Moment ε) : Option (Beginning ε) :=
  match before.handler, after.handler with
  | none, some program => some ⟨program, after.machine.view⟩
  | _, _ => none

/-- The execution as it will be once the handler that is running has come to its end. -/
def settled (moment : Moment ε) : Execution ε :=
  match moment.handler with
  | none => moment.toExecution
  | some program =>
    let ran := program.run moment.machine.view
    ⟨(moment.machine.withView ran.2.1).conclude ran.1, moment.reports ++ ran.2.2⟩

theorem Waits.waiting? {moment : Moment ε} {index : UInt32} (waits : moment.Waits index) :
    moment.waiting? = some index := by
  simp [Moment.waiting?, waits.free, waits.pending, Status.pendingCall?]

private theorem asks?_eq_none {moment : Moment ε}
    (idle : ¬ (moment.handler = none ∧ moment.machine.status = .continuing)) :
    moment.asks? = none := by
  cases held : moment.handler with
  | some program => simp only [Moment.asks?, held]
  | none =>
    simp only [Moment.asks?, held, Machine.asks?]
    split
    · rename_i running _
      exact absurd ⟨held, running⟩ idle
    · rfl

private theorem settled_of_free {moment : Moment ε} (free : moment.handler = none) :
    moment.settled = moment.toExecution := by
  simp only [settled, free]

private theorem eq_settled_of_free {moment : Moment ε} (free : moment.handler = none) :
    moment = moment.settled.moment := by
  rw [settled_of_free free, Execution.moment, ← free]

end Moment

namespace Dispatcher

variable {ε : Type} (dispatcher : Dispatcher ε)

/-- The host calls asked for before a moment, each with the machine that waited for it. -/
def asked (machine : Machine) (n : Nat) : List (UInt32 × Machine) :=
  (List.range n).filterMap fun k =>
    (dispatcher.moments machine k).asks?.map fun index => (index, (dispatcher.moments machine (k + 1)).machine)

/-- The handlers that began before a moment. -/
def begun (machine : Machine) (n : Nat) : List (Beginning ε) :=
  (List.range n).filterMap fun k => (dispatcher.moments machine k).begins? (dispatcher.moments machine (k + 1))

/-- The handler that is to serve a host call, if there is one and the machine can pay for it. -/
def serves? (call : UInt32 × Machine) : Option (Beginning ε) :=
  match dispatcher.registry.get? call.1 with
  | none => none
  | some handler =>
    let paid := call.2.pay (handler.cost call.2.registers).amount
    if paid.gas.isOverdrawn then none else some ⟨handler.execute, paid.view⟩

section

variable {dispatcher} {moment : Moment ε} {index : UInt32}

private theorem tick_of_waits (waits : moment.Waits index) :
    dispatcher.tick moment = dispatcher.call index moment.toExecution := by
  simp [tick, waits.free, waits.pending]

private theorem tick_of_unknown (waits : moment.Waits index) (unknown : dispatcher.registry.get? index = none) :
    dispatcher.tick moment = (dispatcher.refuse moment.toExecution).moment := by
  rw [tick_of_waits waits, call, unknown]

variable {handler : Handler ε}

private theorem tick_of_overdrawn (waits : moment.Waits index) (known : dispatcher.registry.get? index = some handler)
    (unpaid : (moment.machine.pay (handler.cost moment.machine.registers).amount).gas.isOverdrawn = true) :
    dispatcher.tick moment = Execution.moment
      ⟨(moment.machine.pay (handler.cost moment.machine.registers).amount).stop .outOfGas, moment.reports⟩ := by
  rw [tick_of_waits waits, call, known]
  simp only [Machine.chargeGas_of_overdrawn unpaid]

private theorem tick_of_affordable (waits : moment.Waits index) (known : dispatcher.registry.get? index = some handler)
    (paid : (moment.machine.pay (handler.cost moment.machine.registers).amount).gas.isOverdrawn = false) :
    dispatcher.tick moment =
      ⟨⟨moment.machine.pay (handler.cost moment.machine.registers).amount, moment.reports⟩, some handler.execute⟩ := by
  rw [tick_of_waits waits, call, known]
  simp only [Machine.chargeGas_of_affordable paid]

end

theorem waiting?_tick (moment : Moment ε) : (dispatcher.tick moment).waiting? = moment.asks? := by
  by_cases runs : moment.handler = none ∧ moment.machine.status = .continuing
  · obtain ⟨free, running⟩ := runs
    rw [dispatcher.tick_of_running free running, Moment.asks?, free]
    exact Machine.pendingCall?_step running
  · rw [Moment.asks?_eq_none runs]
    have ticks := dispatcher.tick_ticks moment
    generalize dispatcher.tick moment = after at ticks
    cases ticks with
    | steps machine free running => exact absurd ⟨free, running⟩ runs
    | rests free ended =>
      cases status : moment.machine.status with
      | hostCall index => simp [status, Status.isTerminal] at ended
      | _ => simp [Moment.waiting?, free, status, Status.pendingCall?]
    | overdraws => rfl
    | refuses => rfl
    | begins => rfl
    | serves => rfl
    | concludes verdict => exact (moment.machine.answered_conclude verdict).answered

private theorem begins?_tick (moment : Moment ε) :
    moment.begins? (dispatcher.tick moment) =
      moment.waiting?.bind fun index => dispatcher.serves? (index, moment.machine) := by
  cases held : moment.handler with
  | some program => simp [Moment.begins?, Moment.waiting?, held]
  | none =>
    cases status : moment.machine.status with
    | continuing =>
      rw [dispatcher.tick_of_running held status]
      simp [Moment.begins?, Moment.waiting?, held, status, Status.pendingCall?, Execution.moment]
    | hostCall index =>
      have waits : moment.Waits index := ⟨held, status⟩
      rw [waits.waiting?]
      simp only [Option.bind_some, serves?]
      cases found : dispatcher.registry.get? index with
      | none =>
        rw [tick_of_unknown waits found]
        simp [Moment.begins?, held, Execution.moment]
      | some handler =>
        cases paid : (moment.machine.pay (handler.cost moment.machine.registers).amount).gas.isOverdrawn with
        | true =>
          rw [tick_of_overdrawn waits found paid]
          simp [Moment.begins?, held, paid, Execution.moment]
        | false =>
          rw [tick_of_affordable waits found paid]
          simp [Moment.begins?, held, paid]
    | _ => simp [Moment.begins?, Moment.waiting?, tick, held, status, Status.pendingCall?]

private theorem begun_succ_eq {machine : Machine} (running : machine.status = .continuing) (n : Nat) :
    dispatcher.begun machine (n + 1) = (dispatcher.asked machine n).filterMap dispatcher.serves? := by
  have first : (dispatcher.moments machine 0).begins? (dispatcher.moments machine 1) = none := by
    rw [moments_succ, begins?_tick]
    have idle : (dispatcher.moments machine 0).waiting? = none :=
      (congrArg Status.pendingCall? running).trans rfl
    rw [idle]
    rfl
  -- a handler begins one moment after its call was asked for, so the two lists are a moment apart
  rw [begun, asked, List.range_succ_eq_map, List.filterMap_cons, first, List.filterMap_map, List.filterMap_filterMap]
  refine List.filterMap_congr fun k _ => ?_
  have asks : (dispatcher.moments machine (k + 1)).waiting? = (dispatcher.moments machine k).asks? := by
    rw [moments_succ]
    exact dispatcher.waiting?_tick _
  simp only [Function.comp_apply, Nat.succ_eq_add_one]
  rw [moments_succ dispatcher machine (k + 1), begins?_tick, asks]
  cases (dispatcher.moments machine k).asks? <;> rfl

private theorem settled_tick_of_handler {moment : Moment ε} {program : HostProgram ε (Option HostVerdict)}
    (held : moment.handler = some program) : (dispatcher.tick moment).settled = moment.settled := by
  cases ended : program.ended? with
  | some verdict =>
    obtain rfl := HostProgram.eq_done_of_ended? ended
    simp [tick, Moment.settled, held, HostProgram.ended?, HostProgram.run, Execution.moment, Machine.withView,
      Machine.view]
  | none =>
    rcases served : program.next moment.machine.view with ⟨rest, view, first⟩
    have ran := program.run_next moment.machine.view
    have viewed : (moment.machine.withView view).view = view := rfl
    simp only [served] at ran
    simp only [tick, Moment.settled, held, ended, served, ran, viewed]
    -- what the handler reports while it runs is gathered from the left, what `run` gives from the right
    have joined : moment.reports ++ first ++ (rest.run view).2.2 =
        moment.reports ++ (first ++ (rest.run view).2.2) := by
      refine Array.toList_inj.mp ?_
      simp
    rw [joined]
    rfl

private theorem settled_tick_of_free {moment : Moment ε} (free : moment.handler = none) :
    (dispatcher.tick moment).settled = dispatcher.advance moment.toExecution := by
  cases status : moment.machine.status with
  | continuing =>
    rw [dispatcher.tick_of_running free status, advance, status]
    rfl
  | hostCall index =>
    have waits : moment.Waits index := ⟨free, status⟩
    rw [advance, status]
    simp only [dispatch]
    cases found : dispatcher.registry.get? index with
    | none =>
      rw [tick_of_unknown waits found]
      rfl
    | some handler =>
      simp only [serve]
      cases paid : (moment.machine.pay (handler.cost moment.machine.registers).amount).gas.isOverdrawn with
      | true =>
        rw [tick_of_overdrawn waits found paid]
        simp only [Machine.chargeGas_of_overdrawn paid]
        rfl
      | false =>
        rw [tick_of_affordable waits found paid]
        simp only [Machine.chargeGas_of_affordable paid]
        rfl
  | _ => simp [tick, advance, free, status, Moment.settled]

private theorem exists_settled (machine : Machine) (n : Nat) :
    ∃ k, dispatcher.advance^[k] ⟨machine, #[]⟩ = (dispatcher.moments machine n).settled := by
  induction n with
  | zero => exact ⟨0, rfl⟩
  | succ n ih =>
    obtain ⟨k, reached⟩ := ih
    rw [moments_succ]
    cases held : (dispatcher.moments machine n).handler with
    -- while a handler is running the moments all settle in the same state
    | some program => exact ⟨k, by rw [dispatcher.settled_tick_of_handler held, reached]⟩
    | none =>
      refine ⟨k + 1, ?_⟩
      rw [Function.iterate_succ_apply', reached, Moment.settled_of_free held, dispatcher.settled_tick_of_free held]

private theorem ends_of_moment {machine : Machine} {n : Nat} {last : Execution ε}
    (reached : dispatcher.moments machine n = last.moment) (ended : isFinished last = true) :
    dispatcher.Ends machine last := by
  obtain ⟨k, passed⟩ := dispatcher.exists_settled machine n
  rw [reached] at passed
  exact ⟨ended, k, passed⟩

private theorem exists_end_of_handler (moment : Moment ε) :
    ∃ m, (∀ i < m, (dispatcher.tick^[i] moment).handler ≠ none) ∧
      dispatcher.tick^[m] moment = moment.settled.moment := by
  classical
  have ends : ∃ m, (dispatcher.tick^[m] moment).handler = none := by
    cases held : moment.handler with
    | none => exact ⟨0, held⟩
    | some program =>
      obtain ⟨m, reached⟩ := dispatcher.ticks_through_handler program moment.machine moment.reports
      have same : moment = ⟨⟨moment.machine, moment.reports⟩, some program⟩ := by rw [← held]
      exact ⟨m, by rw [same, reached]; rfl⟩
  -- the first moment at which no handler is running any more
  have first : ∀ i < Nat.find ends, (dispatcher.tick^[i] moment).handler ≠ none := fun i => Nat.find_min ends
  have settled : ∀ i ≤ Nat.find ends, (dispatcher.tick^[i] moment).settled = moment.settled := by
    intro i
    induction i with
    | zero => exact fun _ => rfl
    | succ i ih =>
      intro le
      obtain ⟨program, held⟩ := Option.ne_none_iff_exists'.mp (first i le)
      rw [Function.iterate_succ_apply', dispatcher.settled_tick_of_handler held, ih (Nat.le_of_succ_le le)]
  refine ⟨Nat.find ends, first, ?_⟩
  rw [Moment.eq_settled_of_free (Nat.find_spec ends), settled _ (Nat.le_refl _)]

private theorem moments_add (machine : Machine) (n m : Nat) :
    dispatcher.moments machine (n + m) = dispatcher.tick^[m] (dispatcher.moments machine n) := by
  rw [moments, moments, Nat.add_comm, Function.iterate_add_apply]

private theorem begun_succ (machine : Machine) (n : Nat) :
    dispatcher.begun machine (n + 1) = dispatcher.begun machine n ++
      ((dispatcher.moments machine n).begins? (dispatcher.moments machine (n + 1))).toList := by
  rw [begun, List.range_succ, List.filterMap_append]
  cases begins : (dispatcher.moments machine n).begins? (dispatcher.moments machine (n + 1)) <;> simp [begun, begins]

private theorem reports_dispatch (index : UInt32) (execution : Execution ε) :
    (dispatcher.dispatch index execution).reports.toList =
      execution.reports.toList ++ (dispatcher.serves? (index, execution.machine)).toList.flatMap Beginning.reports := by
  simp only [dispatch, serves?]
  cases dispatcher.registry.get? index with
  | none =>
    have same : (dispatcher.refuse execution).reports = execution.reports := by
      unfold refuse
      split <;> rfl
    simp [same]
  | some handler =>
    simp only [serve]
    cases paid : (execution.machine.pay (handler.cost execution.machine.registers).amount).gas.isOverdrawn with
    | true => simp [Machine.chargeGas_of_overdrawn paid]
    | false => simp [Machine.chargeGas_of_affordable paid, Beginning.reports]

private theorem reports_settled_tick (moment : Moment ε) :
    (dispatcher.tick moment).settled.reports.toList =
      moment.settled.reports.toList ++ (moment.begins? (dispatcher.tick moment)).toList.flatMap Beginning.reports := by
  cases held : moment.handler with
  | some program =>
    rw [dispatcher.settled_tick_of_handler held]
    simp [Moment.begins?, held]
  | none =>
    rw [dispatcher.settled_tick_of_free held, Moment.settled_of_free held, dispatcher.begins?_tick]
    cases status : moment.machine.status with
    | hostCall index =>
      have waits : moment.Waits index := ⟨held, status⟩
      rw [advance, status, waits.waiting?]
      exact dispatcher.reports_dispatch index moment.toExecution
    | _ => simp [advance, status, Moment.waiting?, held, Status.pendingCall?]

private theorem reports_settled (machine : Machine) (n : Nat) :
    (dispatcher.moments machine n).settled.reports.toList =
      (dispatcher.begun machine n).flatMap Beginning.reports := by
  induction n with
  | zero => rfl
  | succ n ih =>
    rw [begun_succ, List.flatMap_append, ← ih, moments_succ]
    exact dispatcher.reports_settled_tick _

/-- A host call that waits at a moment is served by a handler that begins then and has come to its end by a later
moment. -/
structure Serves (machine : Machine) (n m : Nat) (beginning : Beginning ε) : Prop where
  later : n + 1 < m
  begins : dispatcher.moments machine (n + 1) =
    ⟨⟨(dispatcher.moments machine n).machine.withView beginning.view, (dispatcher.moments machine n).reports⟩,
      some beginning.program⟩
  /-- Nothing else is done meanwhile. -/
  running : ∀ i, n < i → i < m → (dispatcher.moments machine i).handler ≠ none
  left : dispatcher.moments machine m =
    let ran := beginning.program.run beginning.view
    Execution.moment
      ⟨((dispatcher.moments machine n).machine.withView ran.2.1).stop (HostVerdict.status ran.1),
        (dispatcher.moments machine n).reports ++ ran.2.2⟩
  goesOn : (beginning.program.run beginning.view).1 = none →
    dispatcher.moments machine (m + 1) =
      Execution.moment ⟨(dispatcher.moments machine m).machine.step, (dispatcher.moments machine m).reports⟩
  ends : (beginning.program.run beginning.view).1 ≠ none →
    dispatcher.Ends machine (dispatcher.moments machine m).toExecution

private theorem begins_of_waits {moment : Moment ε} {index : UInt32} {beginning : Beginning ε}
    (waits : moment.Waits index) (known : dispatcher.serves? (index, moment.machine) = some beginning) :
    dispatcher.tick moment =
      ⟨⟨moment.machine.withView beginning.view, moment.reports⟩, some beginning.program⟩ := by
  unfold serves? at known
  cases found : dispatcher.registry.get? index with
  | none => simp [found] at known
  | some handler =>
    cases paid : (moment.machine.pay (handler.cost moment.machine.registers).amount).gas.isOverdrawn with
    | true => simp [found, paid] at known
    | false =>
      simp only [found, paid, Bool.false_eq_true, if_false, Option.some.injEq] at known
      subst known
      rw [tick_of_affordable waits found paid]
      rfl

private theorem exists_serves {machine : Machine} {n : Nat} {index : UInt32} {beginning : Beginning ε}
    (waits : (dispatcher.moments machine n).Waits index)
    (known : dispatcher.serves? (index, (dispatcher.moments machine n).machine) = some beginning) :
    ∃ m, dispatcher.Serves machine n m beginning := by
  have begins := dispatcher.begins_of_waits waits known
  rw [← moments_succ] at begins
  obtain ⟨m, running, reached⟩ := dispatcher.exists_end_of_handler (dispatcher.moments machine (n + 1))
  rw [← moments_add] at reached
  have left : dispatcher.moments machine (n + 1 + m) =
      let ran := beginning.program.run beginning.view
      Execution.moment
        ⟨((dispatcher.moments machine n).machine.withView ran.2.1).stop (HostVerdict.status ran.1),
          (dispatcher.moments machine n).reports ++ ran.2.2⟩ := by
    have pending : ((dispatcher.moments machine n).machine.withView
        (beginning.program.run beginning.view).2.1).status = .hostCall index := waits.pending
    dsimp only
    rw [reached, begins, ← Machine.conclude_of_pending pending]
    rfl
  have status : (dispatcher.moments machine (n + 1 + m)).machine.status =
      HostVerdict.status (beginning.program.run beginning.view).1 :=
    congrArg (fun moment : Moment ε => moment.machine.status) left
  refine ⟨n + 1 + m, ?_, begins, ?_, left, fun goesOn => ?_, fun ends => ?_⟩
  · cases m with
    | zero => simp [begins, Execution.moment] at reached
    | succ m => omega
  · intro i after before
    obtain ⟨j, rfl⟩ := Nat.exists_eq_add_of_le after
    rw [moments_add]
    exact running j (by omega)
  · rw [moments_succ]
    refine dispatcher.tick_of_running (congrArg Moment.handler left) ?_
    rw [status, goesOn]
    rfl
  · refine dispatcher.ends_of_moment (by rw [left]; rfl) ?_
    change (dispatcher.moments machine (n + 1 + m)).machine.status.isTerminal = true
    obtain ⟨verdict, asked⟩ := Option.ne_none_iff_exists'.mp ends
    rw [status, asked]
    cases verdict <;> rfl

private theorem refused_of_waits {moment : Moment ε} {index : UInt32} (waits : moment.Waits index)
    (unknown : dispatcher.registry.get? index = none)
    (paid : (moment.machine.pay dispatcher.unknownCallGas.toUInt64).gas.isOverdrawn = false) :
    dispatcher.tick moment = Execution.moment
      ⟨{ moment.machine.pay dispatcher.unknownCallGas.toUInt64 with
          registers := moment.machine.registers.set HostCall.resultRegister ResultCode.what.word
          status := .continuing },
        moment.reports⟩ := by
  have charged : moment.machine.chargeGas (.fixed dispatcher.unknownCallGas) = _ := Machine.chargeGas_of_affordable paid
  have pending : (moment.machine.pay dispatcher.unknownCallGas.toUInt64).status = .hostCall index := waits.pending
  rw [tick_of_unknown waits unknown]
  simp only [refuse, charged, GasCost.amount, Machine.resume, pending]
  rfl

private theorem overdrawn_of_waits {moment : Moment ε} {index : UInt32} (waits : moment.Waits index)
    (unpaid : (moment.machine.pay (dispatcher.price index moment.machine.registers).amount).gas.isOverdrawn = true) :
    dispatcher.tick moment = Execution.moment
      ⟨(moment.machine.pay (dispatcher.price index moment.machine.registers).amount).stop .outOfGas,
        moment.reports⟩ := by
  cases found : dispatcher.registry.get? index with
  | none =>
    simp only [price, found] at unpaid ⊢
    rw [tick_of_unknown waits found, refuse, Machine.chargeGas_of_overdrawn unpaid]
  | some handler =>
    simp only [price, found] at unpaid ⊢
    exact tick_of_overdrawn waits found unpaid

private theorem asked_of_waits {moment : Moment ε} {index : UInt32} (waits : (dispatcher.tick moment).Waits index) :
    moment.handler = none ∧ moment.machine.Asked index (dispatcher.tick moment).machine := by
  have asks : moment.asks? = some index := by
    rw [← dispatcher.waiting?_tick]
    exact waits.waiting?
  cases held : moment.handler with
  | some program => simp [Moment.asks?, held] at asks
  | none =>
    simp only [Moment.asks?, held] at asks
    have asked := Machine.asked_step asks
    rw [dispatcher.tick_of_running held asked.running]
    exact ⟨rfl, asked⟩

/-- Host calls are served once and in order. The handlers that begin are those of the calls that were asked for,
registered and paid for, and what is reported is what they report. A call waits behind its instruction with all else as
it was before. Its handler is given that state less the price, runs without interruption, and the execution goes on
behind the call or ends as the handler asks. A call that nobody serves is answered, and one that cannot be paid for ends
the execution. -/
theorem host_calls_are_served_once_in_order (machine : Machine) (program : Array UInt8) (pc : UInt32) (gas : UInt64)
    (registers : Option Registers) (memory : Option Memory) :
    let started := machine.reset program pc gas registers memory
    let now := dispatcher.moments started
    (∀ n, dispatcher.begun started (n + 1) = (dispatcher.asked started n).filterMap dispatcher.serves?) ∧
    (∀ n, (now n).handler = none →
      (now n).reports.toList = (dispatcher.begun started n).flatMap Beginning.reports) ∧
    (∀ n index, (now n).Waits index →
      ∃ k, n = k + 1 ∧ (now k).handler = none ∧ (now k).machine.Asked index (now n).machine) ∧
    (∀ n index beginning, (now n).Waits index →
      dispatcher.serves? (index, (now n).machine) = some beginning → ∃ m, dispatcher.Serves started n m beginning) ∧
    (∀ n index, (now n).Waits index → dispatcher.registry.get? index = none →
      let paid := (now n).machine.pay dispatcher.unknownCallGas.toUInt64
      paid.gas.isOverdrawn = false →
        now (n + 1) = Execution.moment
          ⟨{ paid with
              registers := (now n).machine.registers.set HostCall.resultRegister ResultCode.what.word
              status := .continuing },
            (now n).reports⟩) ∧
    (∀ n index, (now n).Waits index →
      let paid := (now n).machine.pay (dispatcher.price index (now n).machine.registers).amount
      paid.gas.isOverdrawn = true →
        now (n + 1) = Execution.moment ⟨paid.stop .outOfGas, (now n).reports⟩ ∧
          dispatcher.Ends started ⟨paid.stop .outOfGas, (now n).reports⟩) ∧
    (∀ n index next, (now n).handler = none → (now n).machine.status = .continuing →
      decode (now n).machine.program (now n).machine.pc = .ok (.ecalli index, next) →
        let paid := (now n).machine.pay (now n).machine.instructionGas.toUInt64
        paid.gas.isOverdrawn = true →
          now (n + 1) = Execution.moment ⟨paid.stop .outOfGas, (now n).reports⟩ ∧
            dispatcher.Ends started ⟨paid.stop .outOfGas, (now n).reports⟩) ∧
    ∀ last, dispatcher.run? started = some last →
      dispatcher.Ends started last ∧ (∀ other, dispatcher.Ends started other → other = last) ∧
        ∃ n, now n = last.moment := by
  intro started now
  have succ : ∀ n, now (n + 1) = dispatcher.tick (now n) := dispatcher.moments_succ started
  refine ⟨dispatcher.begun_succ_eq rfl, ?_, ?_, ?_, ?_, ?_, ?_, ?_⟩
  · intro n free
    rw [← dispatcher.reports_settled started n, Moment.settled_of_free free]
  · intro n index waits
    cases n with
    | zero => cases waits.pending
    | succ k =>
      rw [succ] at waits ⊢
      exact ⟨k, rfl, dispatcher.asked_of_waits waits⟩
  · intro n index beginning waits known
    exact dispatcher.exists_serves waits known
  · intro n index waits unknown paid covered
    rw [succ]
    exact dispatcher.refused_of_waits waits unknown covered
  · intro n index waits paid unpaid
    have next : now (n + 1) = Execution.moment ⟨paid.stop .outOfGas, (now n).reports⟩ := by
      rw [succ]
      exact dispatcher.overdrawn_of_waits waits unpaid
    exact ⟨next, dispatcher.ends_of_moment next rfl⟩
  · intro n index behind free running decoded paid unpaid
    have next : now (n + 1) = Execution.moment ⟨paid.stop .outOfGas, (now n).reports⟩ := by
      rw [succ, dispatcher.tick_of_running free running, Machine.step_of_overdrawn running decoded unpaid]
    exact ⟨next, dispatcher.ends_of_moment next rfl⟩
  · intro last ran
    have ends := dispatcher.ends_of_run? ran
    exact ⟨ends, fun other ends' => ends.unique ends', ends.exists_moment⟩

/-- A host call that tells what is in a register and clears it. -/
def draining : Dispatcher UInt64 where
  registry :=
    ⟨[(7, ⟨fun _ => .fixed 3,
      .getRegister (.numbered 8) fun value => .report value (.setRegister (.numbered 8) 0 (.done none))⟩)], by decide⟩
  unknownCallGas := 10

/-- Two host calls, of which the first is served and the second is answered. With less gas the second cannot be paid
for, and with less still its instruction cannot. -/
theorem host_calls_are_served_once_in_order_before_unknown_call :
    let started := fun gas => (Machine.idle 1).reset #[10, 7, 0, 0, 0, 10, 9, 0, 0, 0] 0 gas none none
    let now := fun gas => draining.moments (started gas)
    (draining.asked (started 30) 8).map Prod.fst = [7, 9] ∧
      draining.begun (started 30) (8 + 1) = (draining.asked (started 30) 8).filterMap draining.serves? ∧
      (draining.begun (started 30) 8).flatMap Beginning.reports = [0] ∧
      (∃ k, 7 = k + 1 ∧ (now 30 k).handler = none ∧ (now 30 k).machine.Asked 9 (now 30 7).machine) ∧
      (∃ m beginning, draining.Serves (started 30) 1 m beginning) ∧
      (now 30 (7 + 1)).machine.registers.get HostCall.resultRegister = ResultCode.what.word ∧
      (now 12 (7 + 1)).machine.status = .outOfGas ∧ (now 4 (6 + 1)).machine.status = .outOfGas ∧
      ∃ last, draining.run? (started 30) = some last ∧ draining.Ends (started 30) last := by
  dsimp only
  have run := fun gas => host_calls_are_served_once_in_order draining (Machine.idle 1)
    #[10, 7, 0, 0, 0, 10, 9, 0, 0, 0] 0 gas none none
  obtain ⟨inOrder, reports, behind, served, refused, -, -, ends⟩ := run 30
  obtain ⟨-, -, -, -, -, unpaid, -, -⟩ := run 12
  obtain ⟨-, -, -, -, -, -, unexecuted, -⟩ := run 4
  have told := reports 8 (by decide +kernel)
  have known : (draining.serves? (7, (draining.moments ((Machine.idle 1).reset
      #[10, 7, 0, 0, 0, 10, 9, 0, 0, 0] 0 30 none none) 1).machine)).isSome = true := by decide +kernel
  obtain ⟨beginning, known⟩ := Option.isSome_iff_exists.mp known
  obtain ⟨m, serves⟩ := served 1 7 beginning ⟨by decide +kernel, by decide +kernel⟩ known
  have answered := refused 7 9 ⟨by decide +kernel, by decide +kernel⟩ (by decide +kernel) (by decide +kernel)
  have unpaid := unpaid 7 9 ⟨by decide +kernel, by decide +kernel⟩ (by decide +kernel)
  have unexecuted := unexecuted 6 9 10 (by decide +kernel) (by decide +kernel) (by decide +kernel) (by decide +kernel)
  have finishes : (draining.run? ((Machine.idle 1).reset
      #[10, 7, 0, 0, 0, 10, 9, 0, 0, 0] 0 30 none none)).isSome = true := by decide +kernel
  obtain ⟨last, ran⟩ := Option.isSome_iff_exists.mp finishes
  refine ⟨by decide +kernel, inOrder 8, ?_, behind 7 9 ⟨by decide +kernel, by decide +kernel⟩, ⟨m, beginning, serves⟩,
    ?_, ?_, ?_, last, ran, (ends last ran).1⟩
  · rw [← told]
    decide +kernel
  · rw [answered]
    decide +kernel
  · rw [unpaid.1]
    rfl
  · rw [unexecuted.1]
    rfl

end Dispatcher

end MeteredVm
