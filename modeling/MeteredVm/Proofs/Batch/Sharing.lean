import MeteredVm.Config
import MeteredVm.Node.Batch
import MeteredVm.Proofs.Execution.Termination
import MeteredVm.Proofs.Pool.Operations

/-!
Jobs that share a pool do not disturb each other. Whatever turns the jobs took, each machine that is prepared for a job
is prepared as a new one would be, so each job comes to what it comes to alone; and every machine is idle, on its way
to a job that asked for it, or with a job.
-/

set_option autoImplicit false
set_option relaxedAutoImplicit false

namespace MeteredVm

/-- The pool of a configuration between batches: all its machines are idle, in whatever state they were left, and nobody
waits. -/
structure Pool.AtRest (config : VmConfig) (pool : Pool Machine) : Prop where
  capacity : pool.capacity = config.poolCapacity
  idle : pool.idle.length = config.poolCapacity
  outstanding : pool.outstanding = 0
  delivered : pool.delivered = []
  nobody : pool.waiters = []
  priced : ∀ machine ∈ pool.idle, machine.instructionGas = config.instructionGas

namespace Pool

/-- Those in the books of a pool: they were given a machine that they have not taken, or they wait. -/
abbrev books {α : Type} (pool : Pool α) : List Nat := pool.receivers ++ pool.waiters

/-- What holds of the pool of a configuration while it is shared. -/
structure Sound (config : VmConfig) (pool : Pool Machine) : Prop where
  capacity : pool.capacity = config.poolCapacity
  /-- Every machine is idle or was handed out. -/
  full : pool.idle.length + pool.outstanding = config.poolCapacity
  /-- Nobody waits while a machine is idle. -/
  wanted : pool.idle ≠ [] → pool.waiters = []
  distinct : pool.books.Nodup
  priced : ∀ machine ∈ pool.stock, machine.instructionGas = config.instructionGas

variable {config : VmConfig} {pool after : Pool Machine} {ticket : Nat}

theorem AtRest.sound (rest : pool.AtRest config) : pool.Sound config where
  capacity := rest.capacity
  full := by rw [rest.idle, rest.outstanding, Nat.add_zero]
  wanted _ := rest.nobody
  distinct := by simp [books, receivers, rest.delivered, rest.nobody]
  priced machine member := by
    rw [stock, rest.delivered, List.map_nil, List.append_nil] at member
    exact rest.priced machine member

theorem Sound.atRest (sound : pool.Sound config) (outstanding : pool.outstanding = 0) (nobody : pool.books = []) :
    pool.AtRest config := by
  obtain ⟨delivered, waiters⟩ := List.append_eq_nil_iff.mp nobody
  have full := sound.full
  rw [outstanding, Nat.add_zero] at full
  exact ⟨sound.capacity, full, outstanding, List.map_eq_nil_iff.mp delivered, waiters, fun machine member =>
    sound.priced machine (List.mem_append_left _ member)⟩

private theorem Asks.books_of_some {item : Machine} (asked : pool.Asks ticket (some item) after)
    (distinct : pool.books.Nodup) : after.books.Sublist pool.books ∧ ticket ∉ after.books := by
  cases asked with
  | takes _ _ given =>
    obtain ⟨earlier, later, -, given⟩ := given
    have split : pool.books = earlier.map Prod.fst ++ ticket :: (later.map Prod.fst ++ pool.waiters) := by
      rw [books, receivers, given, List.map_append, List.map_cons, List.append_assoc, List.cons_append]
    have joined : ({ pool with delivered := earlier ++ later } : Pool Machine).books =
        earlier.map Prod.fst ++ (later.map Prod.fst ++ pool.waiters) := by
      rw [books, receivers, List.map_append, List.append_assoc]
    rw [split] at distinct
    rw [joined, split]
    exact ⟨List.Sublist.append_left (List.sublist_cons_self ticket _) _, (List.nodup_middle.mp distinct).notMem⟩
  | isHanded _ idle notGiven notWaiting top =>
    refine ⟨List.Sublist.refl _, fun member => ?_⟩
    exact (List.mem_append.mp member).elim notGiven notWaiting

private theorem Asks.books_of_none (asked : pool.Asks ticket none after) :
    after = pool ∨ ticket ∉ pool.books ∧ pool.idle = [] ∧ after.books = pool.books ++ [ticket] := by
  cases asked with
  | waits => exact .inl rfl
  | joins queue notGiven notWaiting noneIdle last =>
    refine .inr ⟨fun member => (List.mem_append.mp member).elim notGiven notWaiting, noneIdle, ?_⟩
    rw [books, waiters, last, ← List.append_assoc]

private theorem Sound.asks {answer : Option Machine} (sound : pool.Sound config)
    (asked : pool.Asks ticket answer after) :
    after.Sound config := by
  obtain ⟨capacity, full, wanted, distinct, priced⟩ := sound
  cases answer with
  | none =>
    have stock := asked.stock_eq
    have books := asked.books_of_none
    rw [← stock] at priced
    rcases books with rfl | ⟨absent, noneIdle, books⟩
    · exact ⟨capacity, full, wanted, distinct, priced⟩
    · have nodup : after.books.Nodup := by
        rw [books, ← List.concat_eq_append, List.nodup_concat]
        exact ⟨absent, distinct⟩
      cases asked with
      | waits => exact ⟨capacity, full, wanted, distinct, priced⟩
      | joins => exact ⟨capacity, full, fun someIdle => absurd noneIdle someIdle, nodup, priced⟩
  | some item =>
    have stock := asked.stock_perm
    have nodup := distinct.sublist (asked.books_of_some distinct).1
    have rest : ∀ machine ∈ after.stock, machine.instructionGas = config.instructionGas :=
      fun machine member => priced machine (stock.mem_iff.mpr (List.mem_cons_of_mem _ member))
    cases asked with
    | takes _ _ given =>
      cases given
      exact ⟨capacity, full, wanted, nodup, rest⟩
    | isHanded _ idle notGiven notWaiting top =>
      refine ⟨capacity, ?_, fun _ => wanted (by rw [top]; exact List.cons_ne_nil _ _), nodup, rest⟩
      rw [top, List.length_cons] at full
      change idle.length + (pool.outstanding + 1) = config.poolCapacity
      omega

private theorem Receives.books_sublist {item : Machine} (received : pool.Receives item after) :
    after.books.Sublist pool.books := by
  cases received with
  | drops => exact List.Sublist.refl _
  | gives ticket queue someOut oldest =>
    have same : ({ pool with queue, delivered := pool.delivered ++ [(ticket, item)] } : Pool Machine).books =
        pool.books := by
      rw [books, receivers, List.map_append, List.append_assoc, books, oldest]
      rfl
    rw [same]
  | keeps => exact List.Sublist.append_left (List.nil_sublist _) _

private theorem Sound.receives {item : Machine} (sound : pool.Sound config) (received : pool.Receives item after)
    (someOut : pool.outstanding ≠ 0) (price : item.instructionGas = config.instructionGas) : after.Sound config := by
  obtain ⟨capacity, full, wanted, distinct, priced⟩ := sound
  have stock := received.stock_perm someOut
  have nodup := distinct.sublist received.books_sublist
  have rest : ∀ machine ∈ after.stock, machine.instructionGas = config.instructionGas := by
    intro machine member
    rcases List.mem_cons.mp (stock.mem_iff.mp member) with rfl | before
    · exact price
    · exact priced machine before
  cases received with
  | drops nothingOut => exact absurd nothingOut someOut
  | gives ticket queue _ oldest =>
    refine ⟨capacity, full, fun someIdle => ?_, nodup, rest⟩
    rw [wanted someIdle] at oldest
    cases oldest
  | keeps _ nobody =>
    refine ⟨capacity, ?_, fun _ => rfl, nodup, rest⟩
    change (item :: pool.idle).length + (pool.outstanding - 1) = config.poolCapacity
    rw [List.length_cons]
    omega

end Pool

namespace Node

variable {ε : Type}

/-- A new machine of a configuration that is prepared for a job. -/
def Job.prepared (job : Job) (config : VmConfig) : Machine := job.load (Machine.idle config.instructionGas)

/-- Preparing a machine for a job leaves nothing of what the machine did before. -/
theorem Job.load_eq (job : Job) {config : VmConfig} {machine : Machine}
    (priced : machine.instructionGas = config.instructionGas) : job.load machine = job.prepared config := by
  rw [load, prepared, load, Machine.reset, Machine.reset, priced]
  rfl

namespace Phase

/-- The number of machines that a job has in a phase. -/
def machines : Phase ε → Nat
  | .waiting | .done .. => 0
  | .loaded _ | .ran _ => 1

/-- The phase is one through which a job passes alone, on a machine prepared for it. -/
inductive Agrees (prepared : Machine) (alone : Execution ε) : Phase ε → Prop where
  | waiting : Agrees prepared alone .waiting
  | loaded : Agrees prepared alone (.loaded prepared)
  | ran : Agrees prepared alone (.ran alone)
  | done : Agrees prepared alone (.done alone.machine.result alone.reports)

end Phase

namespace Batch

variable {batch after : Batch ε} {run : Nat} {old : Phase ε}

/-- The sum of a weight over the jobs of a batch. -/
def total (weight : Phase ε → Nat) (batch : Batch ε) : Nat :=
  batch.phases.toList.foldr (fun phase sum => weight phase + sum) 0

theorem phase_put_self (new : Phase ε) (held : batch.phases[run]? = some old) :
    (batch.put run new).phases[run]? = some new := by
  obtain ⟨inside, -⟩ := Array.getElem?_eq_some_iff.mp held
  rw [put, Array.getElem?_setIfInBounds_self_of_lt inside]

theorem phase_put_of_ne (new : Phase ε) {other : Nat} (apart : other ≠ run) :
    (batch.put run new).phases[other]? = batch.phases[other]? := by
  rw [put, Array.getElem?_setIfInBounds_ne (Ne.symm apart)]

theorem total_put (weight : Phase ε → Nat) (new : Phase ε) (held : batch.phases[run]? = some old) :
    (batch.put run new).total weight + weight old = batch.total weight + weight new := by
  have onList : ∀ (phases : List (Phase ε)) (i : Nat), phases[i]? = some old →
      (phases.set i new).foldr (fun phase sum => weight phase + sum) 0 + weight old =
        phases.foldr (fun phase sum => weight phase + sum) 0 + weight new := by
    intro phases
    induction phases with
    | nil =>
      intro i found
      simp at found
    | cons first rest ih =>
      intro i found
      cases i with
      | zero =>
        obtain rfl : first = old := by simpa using found
        simp only [List.set_cons_zero, List.foldr_cons]
        omega
      | succ i =>
        have later := ih i (by simpa using found)
        simp only [List.set_cons_succ, List.foldr_cons]
        omega
  have inList : batch.phases.toList[run]? = some old := by rwa [Array.getElem?_toList]
  rw [total, total, put, Array.toList_setIfInBounds]
  exact onList _ _ inList

theorem exists_of_total_pos {weight : Phase ε → Nat} (positive : 0 < batch.total weight) :
    ∃ (run : Nat) (phase : Phase ε), batch.phases[run]? = some phase ∧ 0 < weight phase := by
  have onList : ∀ phases : List (Phase ε), 0 < phases.foldr (fun phase sum => weight phase + sum) 0 →
      ∃ phase ∈ phases, 0 < weight phase := by
    intro phases
    induction phases with
    | nil =>
      intro impossible
      exact absurd impossible (Nat.lt_irrefl 0)
    | cons first rest ih =>
      intro weighs
      rw [List.foldr_cons] at weighs
      by_cases here : 0 < weight first
      · exact ⟨first, List.mem_cons_self, here⟩
      · obtain ⟨phase, later, positive⟩ := ih (by omega)
        exact ⟨phase, List.mem_cons_of_mem _ later, positive⟩
  obtain ⟨phase, member, weighs⟩ := onList _ positive
  obtain ⟨run, held⟩ := List.mem_iff_getElem?.mp member
  rw [Array.getElem?_toList] at held
  exact ⟨run, phase, held, weighs⟩

/-- What a turn of a job does. -/
inductive Turns (dispatcher : Dispatcher ε) (job : Job) (batch : Batch ε) (run : Nat) : Batch ε → Prop where
  /-- There is no such job, or it is done. -/
  | rests (nothingLeft : ∀ phase, batch.phases[run]? = some phase → ∃ result reports, phase = .done result reports) :
      Turns dispatcher job batch run batch
  | waits (pool : Pool Machine) (waiting : batch.phases[run]? = some .waiting)
      (asked : batch.pool.Asks run none pool) : Turns dispatcher job batch run { batch with pool }
  | loads (machine : Machine) (pool : Pool Machine) (waiting : batch.phases[run]? = some .waiting)
      (asked : batch.pool.Asks run (some machine) pool) :
      Turns dispatcher job batch run ({ batch with pool }.put run (.loaded (job.load machine)))
  /-- Its machine does not come to an end. -/
  | hangs (machine : Machine) (held : batch.phases[run]? = some (.loaded machine))
      (endless : dispatcher.run? machine = none) : Turns dispatcher job batch run batch
  | runs (machine : Machine) (execution : Execution ε) (held : batch.phases[run]? = some (.loaded machine))
      (ended : dispatcher.run? machine = some execution) :
      Turns dispatcher job batch run (batch.put run (.ran execution))
  | returns (execution : Execution ε) (pool : Pool Machine) (held : batch.phases[run]? = some (.ran execution))
      (received : batch.pool.Receives execution.machine pool) :
      Turns dispatcher job batch run
        ({ batch with pool }.put run (.done execution.machine.result execution.reports))

theorem turn_turns (dispatcher : Dispatcher ε) (job : Job) (batch : Batch ε) (run : Nat) :
    batch.Turns dispatcher job run (batch.turn dispatcher job run) := by
  unfold turn
  cases phase : batch.phases[run]? with
  | none =>
    refine .rests fun held found => ?_
    rw [phase] at found
    cases found
  | some held =>
    cases held with
    | waiting =>
      rcases asked : batch.pool.poll run with ⟨_ | machine, pool⟩
      · simp only
        exact .waits pool phase (Pool.poll_asks asked)
      · simp only
        exact .loads machine pool phase (Pool.poll_asks asked)
    | loaded machine =>
      cases ended : dispatcher.run? machine with
      | none =>
        simp only [ended]
        exact .hangs machine phase ended
      | some execution =>
        simp only [ended]
        exact .runs machine execution phase ended
    | ran execution => exact .returns execution _ phase (batch.pool.release_receives execution.machine)
    | done result reports =>
      refine .rests fun held found => ?_
      rw [phase] at found
      exact ⟨result, reports, (Option.some.inj found).symm⟩

/-- What holds of a batch after any turns. -/
structure Shared (config : VmConfig) (job : Job) (alone : Execution ε) (runs : Nat) (batch : Batch ε) : Prop where
  sound : batch.pool.Sound config
  size : batch.phases.size = runs
  /-- A machine that was handed out is on its way to a job or with one. -/
  handed : batch.pool.outstanding = batch.pool.delivered.length + batch.total Phase.machines
  /-- Those in the books of the pool are jobs without a machine. -/
  pending : ∀ run ∈ batch.pool.books, batch.phases[run]? = some .waiting
  agrees : ∀ (run : Nat) (phase : Phase ε), batch.phases[run]? = some phase → phase.Agrees (job.prepared config) alone

variable {config : VmConfig} {job : Job} {alone : Execution ε} {runs : Nat}

theorem phase_start {pool : Pool Machine} {phase : Phase ε} (held : (start pool runs).phases[run]? = some phase) :
    phase = .waiting := by
  obtain ⟨-, same⟩ : run < runs ∧ .waiting = phase := by
    simpa [start, Array.getElem?_replicate] using held
  exact same.symm

theorem shared_start {pool : Pool Machine} (rest : pool.AtRest config) (runs : Nat) :
    (start pool runs : Batch ε).Shared config job alone runs where
  sound := rest.sound
  size := Array.size_replicate
  handed := by
    have unused : (start pool runs : Batch ε).total Phase.machines = 0 := by
      by_contra used
      obtain ⟨run, phase, held, positive⟩ := exists_of_total_pos (Nat.pos_of_ne_zero used)
      obtain rfl := phase_start held
      exact absurd positive (Nat.lt_irrefl 0)
    rw [unused, start, rest.outstanding, rest.delivered]
    rfl
  pending run member := by simp [start, Pool.receivers, rest.delivered, rest.nobody] at member
  agrees run phase held := by
    obtain rfl := phase_start held
    exact .waiting

namespace Shared

private theorem put (shared : batch.Shared config job alone runs) {pool : Pool Machine} {new : Phase ε}
    (held : batch.phases[run]? = some old) (sound : pool.Sound config)
    (handed : pool.outstanding + old.machines = pool.delivered.length + batch.total Phase.machines + new.machines)
    (books : ∀ other ∈ pool.books, other ∈ batch.pool.books ∧ other ≠ run)
    (agrees : new.Agrees (job.prepared config) alone) :
    Shared config job alone runs ({ batch with pool }.put run new) where
  sound := sound
  size := by
    rw [← shared.size]
    exact Array.size_setIfInBounds
  handed := by
    have heldNow : ({ batch with pool } : Batch ε).phases[run]? = some old := held
    have total := total_put Phase.machines new heldNow
    change pool.outstanding = pool.delivered.length + ({ batch with pool }.put run new).total Phase.machines
    change ({ batch with pool }.put run new).total Phase.machines + old.machines =
      batch.total Phase.machines + new.machines at total
    omega
  pending other member := by
    obtain ⟨before, apart⟩ := books other member
    rw [phase_put_of_ne new apart]
    exact shared.pending other before
  agrees other phase found := by
    have heldNow : ({ batch with pool } : Batch ε).phases[run]? = some old := held
    by_cases same : other = run
    · subst same
      rw [phase_put_self new heldNow] at found
      obtain rfl := Option.some.inj found
      exact agrees
    · rw [phase_put_of_ne new same] at found
      exact shared.agrees other phase found

private theorem machines_le (shared : batch.Shared config job alone runs) (held : batch.phases[run]? = some old) :
    old.machines ≤ batch.pool.outstanding := by
  have total := total_put Phase.machines (.waiting : Phase ε) held
  have handed := shared.handed
  change (batch.put run .waiting).total Phase.machines + old.machines = batch.total Phase.machines + 0 at total
  omega

theorem turn {dispatcher : Dispatcher ε} (shared : batch.Shared config job alone runs)
    (ended : dispatcher.run? (job.prepared config) = some alone)
    (turns : batch.Turns dispatcher job run after) : after.Shared config job alone runs := by
  have handed := shared.handed
  cases turns with
  | rests => exact shared
  | hangs => exact shared
  | waits pool waiting asked =>
    have counts := asked.counts_eq
    refine ⟨shared.sound.asks asked, shared.size, ?_, fun other member => ?_, shared.agrees⟩
    · change pool.outstanding = pool.delivered.length + batch.total Phase.machines
      omega
    · rcases asked.books_of_none with same | ⟨-, -, books⟩
      · rw [same] at member
        exact shared.pending other member
      · change other ∈ pool.books at member
        rw [books, List.mem_append, List.mem_singleton] at member
        rcases member with before | rfl
        · exact shared.pending other before
        · exact waiting
  | loads machine pool waiting asked =>
    have counts := asked.outstanding_eq
    obtain ⟨books, gone⟩ := asked.books_of_some shared.sound.distinct
    have price : machine.instructionGas = config.instructionGas :=
      shared.sound.priced machine (asked.stock_perm.mem_iff.mpr List.mem_cons_self)
    rw [job.load_eq price]
    refine shared.put waiting (shared.sound.asks asked) ?_ (fun other member => ?_) .loaded
    · simp only [Phase.machines]
      omega
    · exact ⟨books.mem member, fun same => gone (same ▸ member)⟩
  | runs machine execution held ran =>
    have agrees := shared.agrees run _ held
    cases agrees
    obtain rfl : execution = alone := Option.some.inj (ran.symm.trans ended)
    refine shared.put held shared.sound ?_ (fun other member => ⟨member, ?_⟩) .ran
    · simp only [Phase.machines]
      omega
    · rintro rfl
      have waiting := shared.pending _ member
      rw [held] at waiting
      cases waiting
  | returns execution pool held received =>
    have agrees := shared.agrees run _ held
    cases agrees
    have someOut : batch.pool.outstanding ≠ 0 := by
      have one := shared.machines_le held
      simp only [Phase.machines] at one
      omega
    have price : alone.machine.instructionGas = config.instructionGas :=
      Dispatcher.instructionGas_of_run? ended
    have counts := received.outstanding_eq someOut
    refine shared.put held (shared.sound.receives received someOut price) ?_ (fun other member => ?_) .done
    · simp only [Phase.machines]
      omega
    · have before := received.books_sublist.mem member
      refine ⟨before, ?_⟩
      rintro rfl
      have waiting := shared.pending _ before
      rw [held] at waiting
      cases waiting

end Shared

end Batch

end Node

end MeteredVm
