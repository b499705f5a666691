import MeteredVm.Node.Runner
import MeteredVm.Proofs.Batch.Progress

/-!
Running a program many times at once comes to running it alone, as often as asked. Whatever order the runs take their
turns in, whatever the machines of the pool did before, and however many there are, every run has the result of one run
on a new machine, and the pool is at rest again afterwards.
-/

set_option autoImplicit false
set_option relaxedAutoImplicit false

namespace MeteredVm

namespace Pool.AtRest

variable {config : VmConfig} {pool : Pool Machine}

theorem of_ofConfig (built : Pool.ofConfig config = .ok pool) : pool.AtRest config := by
  unfold Pool.ofConfig at built
  cases valid : config.validate with
  | error error =>
    rw [valid] at built
    cases built
  | ok checked =>
    rw [valid] at built
    cases made : Pool.ofFactory config.poolCapacity fun _ => Machine.idle config.instructionGas with
    | error error =>
      rw [made] at built
      cases built
    | ok new =>
      rw [made] at built
      obtain rfl : new = pool := Except.ok.inj built
      obtain ⟨-, -, rfl⟩ := ofFactory_eq_ok_iff.mp made
      refine ⟨rfl, by simp, rfl, rfl, rfl, fun machine member => ?_⟩
      obtain ⟨-, rfl⟩ : config.poolCapacity ≠ 0 ∧ machine = Machine.idle config.instructionGas := by
        simpa using member
      rfl

private theorem lends (rest : pool.AtRest config) (one : 0 < config.poolCapacity) (ticket : Nat) :
    ∃ machine lent, pool.poll ticket = (some machine, lent) ∧ machine.instructionGas = config.instructionGas ∧
      ∀ item : Machine, item.instructionGas = config.instructionGas → (lent.release item).AtRest config := by
  obtain ⟨capacity, idle, outstanding, delivered, nobody, priced⟩ := rest
  rcases asked : pool.poll ticket with ⟨answer, lent⟩
  cases poll_asks asked with
  | takes item _ given =>
    have taken := given.length_eq
    rw [delivered] at taken
    cases taken
  | waits waiting =>
    rw [nobody] at waiting
    cases waiting
  | joins queue notGiven notWaiting noneIdle last =>
    rw [noneIdle, List.length_nil] at idle
    omega
  | isHanded machine others notGiven notWaiting top =>
    rw [top] at priced idle
    refine ⟨machine, _, rfl, priced machine List.mem_cons_self, fun item price => ?_⟩
    generalize released : release _ item = back
    have received := release_receives { pool with idle := others, outstanding := pool.outstanding + 1 } item
    rw [released] at received
    cases received with
    | drops nothingOut => cases nothingOut
    | gives first queue someOut oldest =>
      rw [show waiters { pool with idle := others, outstanding := pool.outstanding + 1 } = pool.waiters from rfl,
        nobody] at oldest
      cases oldest
    | keeps someOut _ =>
      refine ⟨capacity, idle, ?_, delivered, rfl, fun other member => ?_⟩
      · change pool.outstanding + 1 - 1 = 0
        omega
      · rcases List.mem_cons.mp member with rfl | before
        · exact price
        · exact priced other (List.mem_cons_of_mem _ before)

end Pool.AtRest

namespace Node

variable {ε : Type}

namespace Batch

variable {dispatcher : Dispatcher ε} {job : Job} {batch : Batch ε} {run : Nat} {config : VmConfig}
  {alone : Execution ε} {runs : Nat}

private theorem allDone_of_results? {results : List (ExecutionResult × Array ε)}
    (found : batch.results? = some results) :
    batch.AllDone := by
  have onList : ∀ (phases : List (Phase ε)) (results : List (ExecutionResult × Array ε)),
      phases.mapM finished? = some results → ∀ phase ∈ phases, phase.isDone = true := by
    intro phases
    induction phases with
    | nil =>
      intro results _ phase member
      cases member
    | cons first rest ih =>
      intro results found phase member
      rw [List.mapM_cons] at found
      obtain ⟨head, firstDone, found⟩ := Option.bind_eq_some_iff.mp found
      obtain ⟨tail, restDone, -⟩ := Option.bind_eq_some_iff.mp found
      rcases List.mem_cons.mp member with rfl | later
      · cases phase with
        | done result reports => rfl
        | waiting => cases firstDone
        | loaded machine => cases firstDone
        | ran execution => cases firstDone
      · exact ih tail restDone phase later
  intro run phase held
  refine onList batch.phases.toList results found phase ?_
  rw [← Array.getElem?_toList] at held
  exact List.mem_of_getElem? held

namespace Shared

private theorem results?_eq (shared : batch.Shared config job alone runs) (done : batch.AllDone) :
    batch.results? = some (List.replicate runs (alone.machine.result, alone.reports)) := by
  have onList : ∀ phases : List (Phase ε),
      (∀ phase ∈ phases, finished? phase = some (alone.machine.result, alone.reports)) →
        phases.mapM finished? = some (List.replicate phases.length (alone.machine.result, alone.reports)) := by
    intro phases
    induction phases with
    | nil =>
      intro _
      rfl
    | cons first rest ih =>
      intro each
      rw [List.mapM_cons, each first List.mem_cons_self,
        ih fun phase later => each phase (List.mem_cons_of_mem _ later)]
      rfl
  have length : batch.phases.toList.length = runs := by rw [Array.length_toList, shared.size]
  rw [results?, onList, length]
  intro phase member
  obtain ⟨run, held⟩ := List.mem_iff_getElem?.mp member
  rw [Array.getElem?_toList] at held
  have agrees := shared.agrees run phase held
  have finished := done run phase held
  cases agrees with
  | done => rfl
  | waiting => cases finished
  | loaded => cases finished
  | ran => cases finished

private theorem atRest (shared : batch.Shared config job alone runs) (done : batch.AllDone) :
    batch.pool.AtRest config := by
  have nobody : batch.pool.books = [] := by
    rw [List.eq_nil_iff_forall_not_mem]
    intro run member
    cases done run _ (shared.pending run member)
  have unused : batch.total Phase.machines = 0 := by
    by_contra used
    obtain ⟨run, phase, held, positive⟩ := exists_of_total_pos (Nat.pos_of_ne_zero used)
    have finished := done run phase held
    cases phase with
    | done result reports => exact absurd positive (Nat.lt_irrefl 0)
    | waiting => cases finished
    | loaded machine => cases finished
    | ran execution => cases finished
  have delivered : batch.pool.delivered = [] := List.map_eq_nil_iff.mp (List.append_eq_nil_iff.mp nobody).1
  have handed := shared.handed
  rw [delivered, List.length_nil, unused] at handed
  exact shared.sound.atRest handed nobody

private theorem exists_unstuck (shared : batch.Shared config job alone runs) (one : 0 < config.poolCapacity)
    (ended : dispatcher.run? (job.prepared config) = some alone) (unfinished : batch.results? = none) :
    ∃ run, batch.Woken run ∧ batch.turn dispatcher job run ≠ batch := by
  have notAll : ¬batch.AllDone := by
    intro done
    rw [shared.results?_eq done] at unfinished
    cases unfinished
  simp only [AllDone, not_forall] at notAll
  obtain ⟨run, phase, held, notDone⟩ := notAll
  obtain ⟨other, woken⟩ := shared.exists_woken one held (Bool.eq_false_iff.mpr notDone)
  refine ⟨other, woken, fun same => ?_⟩
  have turned := batch.turn_turns dispatcher job other
  rw [same] at turned
  rcases shared.distance_lt ended turned with less | ⟨-, asleep⟩
  · exact absurd less (Nat.lt_irrefl _)
  · exact asleep woken

end Shared

private theorem turns_at_rest (rest : batch.pool.AtRest config) (one : 0 < config.poolCapacity)
    (ended : dispatcher.run? (job.prepared config) = some alone) (waiting : batch.phases[run]? = some .waiting) :
    (batch.turns dispatcher job [run, run, run]).pool.AtRest config ∧
      (batch.turns dispatcher job [run, run, run]).phases[run]? =
        some (.done alone.machine.result alone.reports) ∧
      ∀ other, other ≠ run →
        (batch.turns dispatcher job [run, run, run]).phases[other]? = batch.phases[other]? := by
  obtain ⟨machine, lent, polled, price, back⟩ := rest.lends one run
  have first : batch.turn dispatcher job run = { batch with pool := lent }.put run (.loaded (job.prepared config)) := by
    rw [turn, waiting]
    simp only [polled, job.load_eq price]
  generalize lending : ({ batch with pool := lent } : Batch ε) = lentBatch at first
  have lentWaiting : lentBatch.phases[run]? = some .waiting := by
    rw [← lending]
    exact waiting
  have loaded := phase_put_self (.loaded (job.prepared config)) lentWaiting
  have second : (lentBatch.put run (.loaded (job.prepared config))).turn dispatcher job run =
      (lentBatch.put run (.loaded (job.prepared config))).put run (.ran alone) := by
    rw [turn, loaded]
    simp only [ended]
  have ran := phase_put_self (.ran alone) loaded
  generalize running : (lentBatch.put run (.loaded (job.prepared config))).put run (.ran alone) = ranBatch at second ran
  have third : ranBatch.turn dispatcher job run =
      { ranBatch with pool := ranBatch.pool.release alone.machine }.put run
        (.done alone.machine.result alone.reports) := by
    rw [turn, ran]
  have all : batch.turns dispatcher job [run, run, run] =
      { ranBatch with pool := ranBatch.pool.release alone.machine }.put run
        (.done alone.machine.result alone.reports) := by
    rw [turns, List.foldl_cons, List.foldl_cons, List.foldl_cons, List.foldl_nil, first, second, third]
  rw [all]
  refine ⟨?_, phase_put_self _ ran, fun other apart => ?_⟩
  · subst running lending
    exact back alone.machine (Dispatcher.instructionGas_of_run? ended)
  · rw [phase_put_of_ne _ apart]
    subst running lending
    change ((_ : Batch ε).put run (.ran alone)).phases[other]? = _
    rw [phase_put_of_ne _ apart, phase_put_of_ne _ apart]

private theorem turns_in_order {pool : Pool Machine} (rest : pool.AtRest config) (one : 0 < config.poolCapacity)
    (ended : dispatcher.run? (job.prepared config) = some alone) {count : Nat} (few : count ≤ runs) :
    ((start pool runs).turns dispatcher job (inOrder count)).pool.AtRest config ∧
      ∀ run < runs, ((start pool runs).turns dispatcher job (inOrder count)).phases[run]? =
        some (if run < count then .done alone.machine.result alone.reports else .waiting) := by
  induction count with
  | zero =>
    refine ⟨rest, fun run inside => ?_⟩
    change (Array.replicate runs Phase.waiting)[run]? = some Phase.waiting
    rw [Array.getElem?_replicate, if_pos inside]
  | succ count ih =>
    obtain ⟨atRest, phases⟩ := ih (by omega)
    have more : inOrder (count + 1) = inOrder count ++ [count, count, count] := by
      rw [inOrder, List.range_succ, List.flatMap_append, List.flatMap_singleton]
      rfl
    have next := phases count few
    rw [if_neg (Nat.lt_irrefl count)] at next
    -- a pool at rest has a machine to give at once, so three turns take the next job from its start to its end
    obtain ⟨again, done, others⟩ := turns_at_rest atRest one ended next
    have split : (start pool runs).turns dispatcher job (inOrder (count + 1)) =
        ((start pool runs).turns dispatcher job (inOrder count)).turns dispatcher job [count, count, count] := by
      rw [more, turns, List.foldl_append]
      rfl
    rw [split]
    refine ⟨again, fun run inside => ?_⟩
    by_cases same : run = count
    · subst same
      rw [done, if_pos (Nat.lt_succ_self run)]
    · rw [others run same, phases run inside]
      have before : run < count + 1 ↔ run < count := by omega
      simp only [before]

end Batch

namespace Runner

theorem prepared_of_job {config : VmConfig} {program input : Array UInt8} {gas : Option Nat} {job : Job}
    (accepted : Runner.job config program input gas = .ok job) :
    ∃ memory, initialMemory input = .ok memory ∧ job.prepared config =
      (Machine.idle config.instructionGas).reset program 0 (UInt64.ofNat (gas.getD config.defaultGas))
        (some (initialRegisters input.size)) (some memory) := by
  unfold Runner.job at accepted
  cases fits : config.checkCodeSize program.size with
  | error error =>
    rw [fits] at accepted
    cases accepted
  | ok checked =>
    rw [fits] at accepted
    dsimp only at accepted
    by_cases long : maxInputSize < input.size
    · rw [if_pos long] at accepted
      cases accepted
    · rw [if_neg long] at accepted
      by_cases high : GasCounter.maxGas < gas.getD config.defaultGas
      · rw [if_pos high] at accepted
        cases accepted
      · rw [if_neg high] at accepted
        cases laid : initialMemory input with
        | error error =>
          rw [laid] at accepted
          cases accepted
        | ok memory =>
          rw [laid] at accepted
          obtain rfl := Except.ok.inj accepted
          exact ⟨memory, rfl, rfl⟩

theorem runMany_eq {runner : Runner} {program input : Array UInt8} {gas : Option Nat} {runs : Nat} {job : Job}
    {alone : Execution String} (one : 0 < runner.config.poolCapacity)
    (accepted : Runner.job runner.config program input gas = .ok job) (few : runs ≤ maxRuns)
    (rest : runner.pool.AtRest runner.config)
    (ended : runner.dispatcher.run? (job.prepared runner.config) = some alone) :
    ∃ later, runner.runMany program input gas runs =
        (.ok ⟨List.replicate runs alone.machine.result, (List.replicate runs alone.reports.toList).flatten⟩, later) ∧
      later.config = runner.config ∧ later.pool.AtRest runner.config := by
  have shared := (Batch.shared_start rest runs).turns ended (Batch.inOrder runs)
  obtain ⟨atRest, phases⟩ := Batch.turns_in_order rest one ended (Nat.le_refl runs)
  generalize ran : (Batch.start runner.pool runs).turns runner.dispatcher job (Batch.inOrder runs) = batch at *
  have done : batch.AllDone := by
    intro run phase held
    obtain ⟨inside, -⟩ := Array.getElem?_eq_some_iff.mp held
    rw [shared.size] at inside
    rw [phases run inside, if_pos inside] at held
    obtain rfl := Option.some.inj held
    rfl
  have results := shared.results?_eq done
  have proper : ¬maxRuns < runs := Nat.not_lt.mpr few
  refine ⟨⟨runner.config, batch.pool⟩, ?_, rfl, atRest⟩
  simp only [runMany, accepted, if_neg proper, ran, results, List.flatMap_def, List.map_replicate]

theorem poolCapacity_pos {config : VmConfig} (valid : config.validate = .ok ()) : 0 < config.poolCapacity := by
  by_contra empty
  rw [Nat.pos_iff_ne_zero, Decidable.not_not] at empty
  rw [VmConfig.validate, if_pos empty] at valid
  cases valid

/-- Runs of a program that share a pool do not interfere. For a valid configuration that prices instructions, and
whatever the machines of its pool did before: one run of the program on a new machine comes to an end; in whatever order
the runs took their turns, some run is woken and can go on as long as not all are done, and once all are done each of
them has the result of that one run and the pool is at rest again; an order that passes over no woken run forever gets
all of them done; and so does the order in which the runner takes them. -/
theorem runs_do_not_interfere {runner : Runner} {program input : Array UInt8} {gas : Option Nat} {runs : Nat}
    {job : Job} (valid : runner.config.validate = .ok ()) (metered : 1 ≤ runner.config.instructionGas)
    (accepted : Runner.job runner.config program input gas = .ok job) (few : runs ≤ maxRuns)
    (rest : runner.pool.AtRest runner.config) :
    let after := fun order => (Batch.start runner.pool runs).turns runner.dispatcher job order
    ∃ memory alone, initialMemory input = .ok memory ∧
      runner.dispatcher.run? ((Machine.idle runner.config.instructionGas).reset program 0
        (UInt64.ofNat (gas.getD runner.config.defaultGas)) (some (initialRegisters input.size)) (some memory)) =
          some alone ∧
      (∀ order, (after order).results? = none →
        ∃ run, (after order).Woken run ∧ (after order).turn runner.dispatcher job run ≠ after order) ∧
      (∀ order results, (after order).results? = some results →
        results.map Prod.fst = List.replicate runs alone.machine.result ∧
          (after order).pool.idleCount = (after order).pool.capacity ∧ (after order).pool.waitingCount = 0 ∧
          (after order).pool.AtRest runner.config) ∧
      (∀ order, (Batch.start runner.pool runs).Fair runner.dispatcher job order →
        ∃ t, ((Batch.start runner.pool runs).state runner.dispatcher job order t).results?.isSome = true) ∧
      ∃ later, runner.runMany program input gas runs =
          (.ok ⟨List.replicate runs alone.machine.result, (List.replicate runs alone.reports.toList).flatten⟩, later) ∧
        later.config = runner.config ∧ later.pool.AtRest runner.config := by
  intro after
  have one := poolCapacity_pos valid
  have priced : runner.config.instructionGas ≠ 0 := by
    intro free
    rw [free] at metered
    exact absurd metered (by decide)
  obtain ⟨memory, laid, prepared⟩ := prepared_of_job accepted
  obtain ⟨alone, ended⟩ : ∃ alone, runner.dispatcher.run? (job.prepared runner.config) = some alone :=
    Option.isSome_iff_exists.mp (runner.dispatcher.run?_isSome priced)
  have shared : ∀ order, (after order).Shared runner.config job alone runs :=
    fun order => (Batch.shared_start rest runs).turns ended order
  refine ⟨memory, alone, laid, prepared ▸ ended, fun order => (shared order).exists_unstuck one ended,
    fun order results found => ?_, fun order fair => ?_, runMany_eq one accepted few rest ended⟩
  · have done := Batch.allDone_of_results? found
    have atRest := (shared order).atRest done
    rw [(shared order).results?_eq done] at found
    obtain rfl := Option.some.inj found
    refine ⟨by simp, ?_, ?_, atRest⟩
    · rw [Pool.idleCount, atRest.idle, atRest.capacity]
    · rw [Pool.waitingCount_eq, atRest.nobody, List.length_nil]
  · obtain ⟨t, done⟩ := (Batch.shared_start rest runs).exists_allDone one ended fair
    refine ⟨t, ?_⟩
    rw [Batch.state] at done ⊢
    rw [(shared _).results?_eq done]
    rfl

/-- A machine that another program left with a debt, in a panic. -/
def used : Machine := { Machine.idle 1 with program := #[0], pc := 7, gas := ⟨5, -3⟩, status := .panic }

/-- A program that halts at once is run three times on the one machine of a pool. -/
theorem runs_do_not_interfere_on_used_machine :
    let runner : Runner := ⟨{ VmConfig.standard with poolCapacity := 1 }, ⟨1, [used], 0, [⟨4, false⟩], []⟩⟩
    ∃ messages later, runner.runMany #[50, 0, 0, 0, 0, 0] #[] none 3 =
      (.ok ⟨[⟨.halt #[], 1⟩, ⟨.halt #[], 1⟩, ⟨.halt #[], 1⟩], messages⟩, later) ∧ later.pool.AtRest runner.config := by
  intro runner
  have rest : runner.pool.AtRest runner.config :=
    ⟨rfl, rfl, rfl, rfl, rfl, fun machine member => List.mem_singleton.mp member ▸ rfl⟩
  have isOk : (Runner.job runner.config #[50, 0, 0, 0, 0, 0] #[] none).isOk = true := by decide +kernel
  cases accepted : Runner.job runner.config #[50, 0, 0, 0, 0, 0] #[] none with
  | error error =>
    rw [accepted] at isOk
    cases isOk
  | ok job =>
    obtain ⟨memory, alone, laid, ended, -, -, -, later, ran, -, atRest⟩ :=
      runs_do_not_interfere (by rfl) (by decide) accepted (show 3 ≤ maxRuns by decide) rest
    let started := fun memory => (Machine.idle 1).reset #[50, 0, 0, 0, 0, 0] 0 (UInt64.ofNat 10000000)
      (some (initialRegisters 0)) (some memory)
    have computed : ((initialMemory #[]).toOption.bind fun memory =>
        (runner.dispatcher.run? (started memory)).map fun execution => execution.machine.result) =
          some ⟨.halt #[], 1⟩ := by decide +kernel
    have here : runner.dispatcher.run? (started memory) = some alone := ended
    have result : alone.machine.result = ⟨.halt #[], 1⟩ := by
      simpa only [laid, Except.toOption, Option.bind_some, here, Option.map_some, Option.some.injEq] using computed
    rw [result] at ran
    exact ⟨_, later, ran, atRest⟩

end Runner

end Node

end MeteredVm
