import MeteredVm.Proofs.Batch.Sharing

/-!
A batch gets done. As long as a job is unfinished some job can be woken, and every turn of a woken job brings the batch
closer to its end; so an order of turns in which no woken job is passed over forever finishes all of them, and leaves
the pool as it was found.
-/

set_option autoImplicit false
set_option relaxedAutoImplicit false

namespace MeteredVm.Node

variable {ε : Type}

/-- The number of turns that a job still needs once it is given a machine. -/
def Phase.turnsLeft : Phase ε → Nat
  | .waiting => 3
  | .loaded _ => 2
  | .ran _ => 1
  | .done .. => 0

def Phase.isDone : Phase ε → Bool
  | .done .. => true
  | .waiting | .loaded _ | .ran _ => false

namespace Batch

/-- A job is woken: it has not asked for a machine yet, it was given one, or it has one. A job that waits in the queue
is not, and neither is one that is done. -/
def Woken (batch : Batch ε) (run : Nat) : Prop :=
  match batch.phases[run]? with
  | some .waiting => batch.pool.isWaiting run = false
  | some (.loaded _) | some (.ran _) => True
  | some (.done ..) | none => False

/-- The batch after the first turns of an endless order. -/
def state (dispatcher : Dispatcher ε) (job : Job) (batch : Batch ε) (order : Nat → Nat) (t : Nat) : Batch ε :=
  batch.turns dispatcher job ((List.range t).map order)

/-- Every job that is woken gets a turn later on. -/
def Fair (dispatcher : Dispatcher ε) (job : Job) (batch : Batch ε) (order : Nat → Nat) : Prop :=
  ∀ t run, (batch.state dispatcher job order t).Woken run → ∃ later, t ≤ later ∧ order later = run

/-- How far a batch is from its end: turns of jobs with machines, and jobs that may still have to join the queue. -/
def distance (batch : Batch ε) : Nat :=
  2 * batch.total Phase.turnsLeft + (batch.phases.size - batch.pool.waiters.length)

variable {dispatcher : Dispatcher ε} {job : Job} {batch after : Batch ε} {run : Nat} {config : VmConfig}
  {alone : Execution ε} {runs : Nat}

private theorem woken_of_machines {phase : Phase ε} (held : batch.phases[run]? = some phase)
    (busy : 0 < phase.machines) :
    batch.Woken run := by
  unfold Woken
  rw [held]
  cases phase with
  | waiting => exact absurd busy (Nat.lt_irrefl 0)
  | loaded machine => trivial
  | ran execution => trivial
  | done result reports => exact absurd busy (Nat.lt_irrefl 0)

private theorem woken_of_unqueued (waiting : batch.phases[run]? = some .waiting) (unqueued : run ∉ batch.pool.waiters) :
    batch.Woken run := by
  unfold Woken
  rw [waiting]
  exact Bool.eq_false_iff.mpr fun queued => unqueued (Pool.isWaiting_iff.mp queued)

private theorem length_le_of_nodup {waiting : List Nat}
    (nodup : waiting.Nodup) (jobs : ∀ run ∈ waiting, batch.phases[run]? = some .waiting) :
    waiting.length ≤ batch.phases.size := by
  have inside : waiting ⊆ List.range batch.phases.size := by
    intro run member
    obtain ⟨small, -⟩ := Array.getElem?_eq_some_iff.mp (jobs run member)
    exact List.mem_range.mpr small
  have bound := (List.subperm_of_subset nodup inside).length_le
  rwa [List.length_range] at bound

/-- While a job is unfinished, some job is woken: the machines cannot all be out and nobody have one. -/
theorem Shared.exists_woken (shared : batch.Shared config job alone runs) (one : 0 < config.poolCapacity)
    {phase : Phase ε} (held : batch.phases[run]? = some phase) (unfinished : phase.isDone = false) :
    ∃ other, batch.Woken other := by
  by_cases queued : batch.phases[run]? = some .waiting ∧ run ∈ batch.pool.waiters
  · -- Somebody waits, so no machine is idle, and the machines are with jobs or on their way to them.
    have noneIdle : batch.pool.idle = [] := by
      by_contra someIdle
      rw [shared.sound.wanted someIdle] at queued
      exact absurd queued.2 List.not_mem_nil
    have full := shared.sound.full
    have handed := shared.handed
    rw [noneIdle, List.length_nil] at full
    cases onTheirWay : batch.pool.delivered with
    | nil =>
      rw [onTheirWay, List.length_nil] at handed
      obtain ⟨other, phase, held, busy⟩ := exists_of_total_pos (show 0 < batch.total Phase.machines by omega)
      exact ⟨other, woken_of_machines held busy⟩
    | cons entry rest =>
      have given : entry.1 ∈ batch.pool.receivers := by
        rw [Pool.receivers, onTheirWay]
        exact List.mem_cons_self
      have apart := List.disjoint_of_nodup_append shared.sound.distinct
      exact ⟨entry.1, woken_of_unqueued (shared.pending _ (List.mem_append_left _ given)) (apart given)⟩
  · refine ⟨run, ?_⟩
    cases phase with
    | waiting => exact woken_of_unqueued held fun member => queued ⟨held, member⟩
    | loaded machine => exact woken_of_machines held Nat.one_pos
    | ran execution => exact woken_of_machines held Nat.one_pos
    | done result reports => cases unfinished

private theorem distance_put_lt {pool : Pool Machine} {old new : Phase ε} (held : batch.phases[run]? = some old)
    (closer : new.turnsLeft < old.turnsLeft) (queue : batch.pool.waiters.length ≤ pool.waiters.length + 1) :
    ({ batch with pool }.put run new).distance < batch.distance := by
  have heldNow : ({ batch with pool } : Batch ε).phases[run]? = some old := held
  have total := total_put Phase.turnsLeft new heldNow
  have size : ({ batch with pool }.put run new).phases.size = batch.phases.size := Array.size_setIfInBounds
  change ({ batch with pool }.put run new).total Phase.turnsLeft + old.turnsLeft =
    batch.total Phase.turnsLeft + new.turnsLeft at total
  rw [distance, distance, size]
  change _ + (batch.phases.size - pool.waiters.length) < _
  omega

/-- A turn brings the batch closer to its end, unless the job was not woken and nothing happens. -/
theorem Shared.distance_lt (shared : batch.Shared config job alone runs)
    (ended : dispatcher.run? (job.prepared config) = some alone) (turns : batch.Turns dispatcher job run after) :
    after.distance < batch.distance ∨ after = batch ∧ ¬batch.Woken run := by
  have queue := length_le_of_nodup (List.nodup_append.mp shared.sound.distinct).2.1
    fun other member => shared.pending other (List.mem_append_right _ member)
  cases turns with
  | rests nothingLeft =>
    refine .inr ⟨rfl, ?_⟩
    unfold Woken
    cases found : batch.phases[run]? with
    | none => exact id
    | some phase =>
      obtain ⟨result, reports, rfl⟩ := nothingLeft phase found
      exact id
  | hangs machine held endless =>
    have agrees := shared.agrees run _ held
    cases agrees
    rw [ended] at endless
    cases endless
  | waits pool waiting asked =>
    cases asked with
    | waits queued =>
      refine .inr ⟨rfl, ?_⟩
      unfold Woken
      rw [waiting]
      intro unqueued
      rw [Pool.isWaiting_iff.mpr queued] at unqueued
      cases unqueued
    | joins queue_ notGiven notWaiting noneIdle last =>
      left
      have room : (batch.pool.waiters ++ [run]).length ≤ batch.phases.size := by
        refine length_le_of_nodup ?_ fun other member => ?_
        · rw [← List.concat_eq_append, List.nodup_concat]
          exact ⟨notWaiting, (List.nodup_append.mp shared.sound.distinct).2.1⟩
        · rw [List.mem_append, List.mem_singleton] at member
          rcases member with before | rfl
          · exact shared.pending other (List.mem_append_right _ before)
          · exact waiting
      rw [List.length_append, List.length_singleton] at room
      have length : (Waiter.standing queue_).length = batch.pool.waiters.length + 1 := by
        rw [last, List.length_append, List.length_singleton]
      change 2 * batch.total Phase.turnsLeft + (batch.phases.size - (Waiter.standing queue_).length) <
        2 * batch.total Phase.turnsLeft + (batch.phases.size - batch.pool.waiters.length)
      omega
  | loads machine pool waiting asked =>
    left
    have same : pool.waiters = batch.pool.waiters := by
      cases asked with
      | takes _ _ given => exact given.waiters_eq
      | isHanded => rfl
    exact distance_put_lt waiting (Nat.lt_succ_self 2) (by rw [same]; exact Nat.le_succ _)
  | runs machine execution held ran => exact .inl (distance_put_lt held (Nat.lt_succ_self 1) (Nat.le_succ _))
  | returns execution pool held received =>
    left
    refine distance_put_lt held Nat.one_pos ?_
    cases received with
    | drops => exact Nat.le_succ _
    | gives ticket queue_ someOut oldest =>
      rw [oldest, List.length_cons]
    | keeps someOut nobody =>
      rw [nobody]
      exact Nat.zero_le _

private theorem state_succ (order : Nat → Nat) (t : Nat) :
    batch.state dispatcher job order (t + 1) = (batch.state dispatcher job order t).turn dispatcher job (order t) := by
  rw [state, List.range_succ, List.map_append, turns, List.foldl_append]
  rfl

theorem Shared.turns (shared : batch.Shared config job alone runs)
    (ended : dispatcher.run? (job.prepared config) = some alone) (order : List Nat) :
    (batch.turns dispatcher job order).Shared config job alone runs := by
  induction order generalizing batch with
  | nil => exact shared
  | cons run rest ih => exact ih (shared.turn ended (batch.turn_turns dispatcher job run))

def AllDone (batch : Batch ε) : Prop :=
  ∀ (run : Nat) (phase : Phase ε), batch.phases[run]? = some phase → phase.isDone = true

private theorem Shared.state_succ_distance (shared : batch.Shared config job alone runs)
    (ended : dispatcher.run? (job.prepared config) = some alone) (order : Nat → Nat) (t : Nat) :
    (batch.state dispatcher job order (t + 1)).distance < (batch.state dispatcher job order t).distance ∨
      batch.state dispatcher job order (t + 1) = batch.state dispatcher job order t ∧
        ¬(batch.state dispatcher job order t).Woken (order t) := by
  have turned := (batch.state dispatcher job order t).turn_turns dispatcher job (order t)
  rw [← state_succ] at turned
  exact (shared.turns ended _).distance_lt ended turned

private theorem Shared.state_add (shared : batch.Shared config job alone runs)
    (ended : dispatcher.run? (job.prepared config) = some alone) (order : Nat → Nat) (t d : Nat) :
    batch.state dispatcher job order (t + d) = batch.state dispatcher job order t ∨
      ∃ later, (batch.state dispatcher job order later).distance < (batch.state dispatcher job order t).distance := by
  induction d with
  | zero => exact .inl rfl
  | succ d ih =>
    rcases ih with same | closer
    · rcases shared.state_succ_distance ended order (t + d) with less | ⟨unchanged, -⟩
      · right
        exact ⟨t + d + 1, by rwa [same] at less⟩
      · left
        exact unchanged.trans same
    · exact .inr closer

private theorem Shared.exists_closer (shared : batch.Shared config job alone runs)
    (ended : dispatcher.run? (job.prepared config) = some alone) {order : Nat → Nat} {t later : Nat} (after : t ≤ later)
    (woken : (batch.state dispatcher job order t).Woken (order later)) :
    ∃ later, (batch.state dispatcher job order later).distance < (batch.state dispatcher job order t).distance := by
  rcases shared.state_add ended order t (later - t) with same | closer
  · rw [Nat.add_sub_cancel' after] at same
    rcases shared.state_succ_distance ended order later with less | ⟨-, asleep⟩
    · exact ⟨later + 1, by rwa [same] at less⟩
    · rw [same] at asleep
      exact absurd woken asleep
  · exact closer

/-- An order that passes over no woken job forever comes to a batch of which all jobs are done. -/
theorem Shared.exists_allDone (shared : batch.Shared config job alone runs) (one : 0 < config.poolCapacity)
    (ended : dispatcher.run? (job.prepared config) = some alone) {order : Nat → Nat}
    (fair : batch.Fair dispatcher job order) : ∃ t, (batch.state dispatcher job order t).AllDone := by
  have all : ∀ distance t, (batch.state dispatcher job order t).distance = distance →
      ∃ t, (batch.state dispatcher job order t).AllDone := by
    intro distance
    -- whichever run is woken here gets its turn some day, and by then the batch is closer to its end
    induction distance using Nat.strong_induction_on with
    | _ distance ih =>
      rintro t rfl
      by_cases done : (batch.state dispatcher job order t).AllDone
      · exact ⟨t, done⟩
      · simp only [AllDone, not_forall] at done
        obtain ⟨run, phase, held, notDone⟩ := done
        obtain ⟨other, woken⟩ := (shared.turns ended _).exists_woken one held (Bool.eq_false_iff.mpr notDone)
        obtain ⟨later, after, rfl⟩ := fair t other woken
        obtain ⟨sooner, less⟩ := shared.exists_closer ended after woken
        exact ih _ less sooner rfl
  exact all _ 0 rfl

end Batch

end MeteredVm.Node
