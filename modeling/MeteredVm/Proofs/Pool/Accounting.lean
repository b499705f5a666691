import MeteredVm.Proofs.Pool.Bookkeeping

/-!
The accounts of a pool whose callers may return anything, and may keep what they were handed. The main statement is that
idle instances and those counted as outstanding always make up the capacity, and that an instance is dropped only when
nobody could want it.
-/

set_option autoImplicit false
set_option relaxedAutoImplicit false

namespace MeteredVm.Session

variable {σ : Type}

namespace Sound

variable {capacity : Nat} {session : Session σ}

private theorem nobody_waits (h : session.Sound capacity) (someIdle : session.pool.idle ≠ []) :
    session.pool.waitingCount = 0 ∧ ∀ t ∈ session.pending, t ∈ session.asked → t ∈ session.pool.receivers := by
  have nobody := h.unwanted someIdle
  constructor
  · rw [Pool.waitingCount_eq, nobody, List.length_nil]
  · intro t pending asked
    rcases h.receives_or_waits pending asked with given | waiting
    · exact given
    · rw [nobody] at waiting
      exact absurd waiting List.not_mem_nil

private theorem someIdle_of_nothingOut (h : session.Sound capacity) (positive : 0 < capacity)
    (nothingOut : session.pool.outstanding = 0) : session.pool.idle ≠ [] := by
  intro noneIdle
  have full := h.full
  rw [noneIdle, nothingOut, List.length_nil] at full
  omega

end Sound

private theorem release_accounts {used : Pool (Instance σ)} {capacity : Nat} (item : Instance σ)
    (full : used.idle.length + used.outstanding = capacity) :
    (used.outstanding = 0 → used.release item = used) ∧
      (used.outstanding ≠ 0 → (used.release item).stock.Perm (item :: used.stock)) ∧
      (used.release item).idle.length + (used.release item).outstanding = capacity := by
  have received := used.release_receives item
  refine ⟨fun nothingOut => ?_, received.stock_perm, ?_⟩
  · rw [Pool.release, if_pos nothingOut]
  · generalize used.release item = after at received
    cases received with
    | drops => exact full
    | gives => exact full
    | keeps =>
      rw [List.length_cons]
      simp only
      omega

/-- Whatever callers do, return and keep: idle instances and those outstanding make up the capacity; while an instance
is idle, nobody waits for one; and what is returned, by a caller or for an acquirer who gave up, is dropped exactly if
nothing is outstanding, when nobody waits, and is with the pool otherwise. -/
theorem idle_and_outstanding_make_up_capacity {capacity : Nat} {build : Nat → σ} {pool : Pool (Instance σ)}
    (built : Pool.ofFactory capacity (Instance.made build) = .ok pool) (moves : List (Move σ)) :
    let session := (opened pool build).run moves
    (session.pool.idle.length + session.pool.outstanding = capacity ∧ session.pool.idleCount ≤ capacity) ∧
    (session.pool.idle ≠ [] →
      session.pool.waitingCount = 0 ∧ ∀ t ∈ session.pending, t ∈ session.asked → t ∈ session.pool.receivers) ∧
    ∀ used, used = session.pool ∨ (∃ ticket item, session.pool.take? ticket = some (item, used)) → ∀ item,
      (used.outstanding = 0 → used.release item = used ∧ used.waitingCount = 0) ∧
      (used.outstanding ≠ 0 → (used.release item).stock.Perm (item :: used.stock)) ∧
      (used.release item).idle.length + (used.release item).outstanding = capacity := by
  intro session
  have sound : session.Sound capacity := (Sound.opened built).run moves
  have positive := (Pool.ofFactory_eq_ok_iff.mp built).1
  refine ⟨⟨sound.full, ?_⟩, sound.nobody_waits, ?_⟩
  · have full := sound.full
    rw [Pool.idleCount]
    omega
  · intro used origin item
    have same : used.idle = session.pool.idle ∧ used.outstanding = session.pool.outstanding ∧
        used.waiters = session.pool.waiters := by
      rcases origin with rfl | ⟨ticket, given, taken⟩
      · exact ⟨rfl, rfl, rfl⟩
      · cases Pool.takes_of_take? taken
        exact ⟨rfl, rfl, rfl⟩
    obtain ⟨idle, outstanding, waiters⟩ := same
    obtain ⟨drops, keeps, balanced⟩ := release_accounts item (idle ▸ outstanding ▸ sound.full)
    refine ⟨fun nothingOut => ⟨drops nothingOut, ?_⟩, keeps, balanced⟩
    have nobody := (sound.nobody_waits (sound.someIdle_of_nothingOut positive (outstanding ▸ nothingOut))).1
    rwa [Pool.waitingCount_eq, waiters, ← Pool.waitingCount_eq]

/-- Two acquirers of one instance: a foreign instance goes to the one who waits, and the one that was handed out becomes
idle when it comes back. -/
theorem idle_and_outstanding_make_up_capacity_after_foreign_return :
    Pool.ofFactory 1 (Instance.made fun _ => 0) = .ok ⟨1, [⟨0, 0⟩], 0, [], []⟩ ∧
      let session := (opened ⟨1, [⟨0, 0⟩], 0, [], []⟩ fun _ => 0).run
        [.create, .create, .poll 0, .poll 1, .foreign ⟨7, 5⟩, .release 0]
      session.pool.idle ≠ [] ∧ session.pool.waitingCount = 0 ∧ session.pool.receivers = [1] := by
  have built : Pool.ofFactory 1 (Instance.made fun _ => 0) = .ok ⟨1, [⟨0, 0⟩], 0, [], []⟩ := rfl
  refine ⟨built, by decide, ?_, by decide⟩
  exact ((idle_and_outstanding_make_up_capacity built
    [.create, .create, .poll 0, .poll 1, .foreign ⟨7, 5⟩, .release 0]).2.1 (by decide)).1

end MeteredVm.Session
