import MeteredVm.Proofs.Pool.Bookkeeping

/-!
The order in which acquirers are served. The main statement is that instances go to acquirers in the order in which they
first asked, leaving out those who withdrew, and that an acquirer who waits keeps its place until it is served or gives
up.
-/

set_option autoImplicit false
set_option relaxedAutoImplicit false

namespace MeteredVm.Session

variable {σ : Type}

private theorem asked_prefix_perform (session : Session σ) (move : Move σ) :
    session.asked <+: (session.perform move).asked := by
  have moved := session.perform_moved move
  generalize session.perform move = after at moved
  cases moved with
  | polls ticket =>
    unfold Session.poll
    split
    · exact List.prefix_append _ _
    · exact List.prefix_append _ _
  | _ => exact List.prefix_rfl

private theorem asked_prefix_run (session : Session σ) (moves : List (Move σ)) :
    session.asked <+: (session.run moves).asked := by
  induction moves generalizing session with
  | nil => exact List.prefix_rfl
  | cons move rest ih => exact (session.asked_prefix_perform move).trans (ih (session.perform move))

namespace Sound

variable {capacity a b : Nat} {session : Session σ}

/-- While an acquirer is neither served nor gone, nobody is served who asked after it. -/
private theorem not_overtaken {earlier : List Nat} (h : session.Sound capacity) (before : earlier <+: session.asked)
    (first : a ∈ earlier) (second : b ∉ earlier) (unserved : a ∉ session.served) (stays : a ∉ session.withdrawn) :
    b ∉ session.served := by
  intro served
  obtain ⟨later, asked⟩ := before
  have waiting : a ∈ session.pool.waiters := by
    refine ((h.mem_line a).mp ⟨?_, stays⟩).resolve_left unserved
    exact asked ▸ List.mem_append_left later first
  -- the line of those who stayed is cut twice: after those served, and after those who asked early
  have inOrder := h.inOrder
  rw [← asked, List.filter_append] at inOrder
  rcases List.append_eq_append_iff.mp inOrder with ⟨more, allServed, rest⟩ | ⟨more, early, -⟩
  · have late : a ∈ later := by
      refine List.mem_of_mem_filter (p := (· ∉ session.withdrawn)) ?_
      rw [rest]
      exact List.mem_append_right more waiting
    have once := h.askedOnce
    rw [← asked] at once
    exact (List.nodup_append.mp once).2.2 a first a late rfl
  · refine second (List.mem_of_mem_filter (p := (· ∉ session.withdrawn)) ?_)
    rw [early]
    exact List.mem_append_left more served

private theorem not_received_of_waiting (h : session.Sound capacity) (waiting : a ∈ session.pool.waiters) :
    a ∉ session.pool.receivers := by
  intro given
  exact h.not_served_of_waiting waiting (h.served_of_received given)

private theorem poll_of_waiting (h : session.Sound capacity) (waiting : a ∈ session.pool.waiters) :
    session.pool.poll a = (none, session.pool) := by
  rcases polled : session.pool.poll a with ⟨answer, pool⟩
  cases Pool.poll_asks polled with
  | takes _ _ given => exact absurd given.mem_receivers (h.not_received_of_waiting waiting)
  | waits => rfl
  | isHanded _ _ _ notWaiting => exact absurd waiting notWaiting
  | joins _ _ notWaiting => exact absurd waiting notWaiting

private theorem not_received_of_unasked (h : session.Sound capacity) (new : b ∉ session.asked) :
    b ∉ session.pool.receivers := by
  intro given
  exact new (h.asked_of_served (h.served_of_received given))

private theorem poll_behind_waiting (h : session.Sound capacity) (someWait : session.pool.waiters ≠ [])
    (notGiven : b ∉ session.pool.receivers) : (session.pool.poll b).1 = none := by
  rcases polled : session.pool.poll b with ⟨answer, pool⟩
  cases Pool.poll_asks polled with
  | takes _ _ given => exact absurd given.mem_receivers notGiven
  | waits => rfl
  | isHanded item idle _ _ top =>
    refine absurd (h.unwanted ?_) someWait
    rw [top]
    exact List.cons_ne_nil item idle
  | joins => rfl

private theorem pending_of_waiting {move : Move σ} (h : session.Sound capacity) (waiting : a ∈ session.pool.waiters)
    (stays : move ≠ .cancel a) : a ∈ (session.perform move).pending := by
  have pending := h.waitersPending a waiting
  have moved := session.perform_moved move
  generalize session.perform move = after at moved
  cases moved with
  | creates => exact List.mem_cons_of_mem _ pending
  | polls ticket =>
    by_cases same : a = ticket
    · subst same
      rw [Session.poll, h.poll_of_waiting waiting]
      exact pending
    · unfold Session.poll
      split
      · exact pending
      · exact List.mem_filter.mpr ⟨pending, by simpa using same⟩
  | cancels ticket =>
    have other : a ≠ ticket := fun same => stays (congrArg Move.cancel same.symm)
    exact List.mem_filter.mpr ⟨pending, by simpa using other⟩
  | _ => exact pending

/-- A move of anybody else leaves an acquirer waiting, or gives it an instance. -/
private theorem stays_or_receives {move : Move σ} (h : session.Sound capacity) (waiting : a ∈ session.pool.waiters)
    (stays : move ≠ .cancel a) :
    a ∈ (session.perform move).pool.waiters ∨ a ∈ (session.perform move).pool.receivers := by
  have asked := (session.asked_prefix_perform move).subset (h.asked_of_waiting waiting)
  exact ((h.perform move).receives_or_waits (h.pending_of_waiting waiting stays) asked).symm

end Sound

/-- What is returned while somebody waits goes to the oldest waiter. -/
private theorem release_to_oldest {used : Pool (Instance σ)} {oldest : Nat} {rest : List Nat} (item : Instance σ)
    (waiting : used.waiters = oldest :: rest) (someOut : used.outstanding ≠ 0) :
    (used.release item).waiters = rest ∧ (used.release item).delivered = used.delivered ++ [(oldest, item)] := by
  have received := used.release_receives item
  generalize used.release item = after at received
  cases received with
  | drops nothingOut => exact absurd nothingOut someOut
  | gives ticket queue _ front =>
    obtain ⟨rfl, rfl⟩ := List.cons.inj (waiting.symm.trans front)
    exact ⟨rfl, rfl⟩
  | keeps _ nobody => exact absurd (waiting.symm.trans nobody) (List.cons_ne_nil oldest rest)

/-- Acquirers are served in the order in which they first asked, without those who withdrew, whatever else is done. As
long as one who asked is neither served nor gone, nobody who asked later is served, was given an instance, or is handed
one now. Nobody who asks for the first time while others wait is handed anything. Who waits goes on waiting when it asks
again, and stays in the queue until it is given an instance or gives up; nobody who asked and is still there has to join
the queue again. And an instance that is returned, by a caller or for one who gave up, goes to the oldest who waits. -/
theorem acquirers_are_served_in_order {capacity : Nat} {build : Nat → σ} {pool : Pool (Instance σ)}
    (built : Pool.ofFactory capacity (Instance.made build) = .ok pool) (earlier later : List (Move σ)) :
    let before := (opened pool build).run earlier
    let now := (opened pool build).run (earlier ++ later)
    now.asked.filter (· ∉ now.withdrawn) = now.served ++ now.pool.waiters ∧
    (∀ a b, a ∈ before.asked → b ∉ before.asked → a ∉ now.served → a ∉ now.withdrawn →
      b ∉ now.served ∧ b ∉ now.pool.receivers ∧ (now.pool.poll b).1 = none) ∧
    (∀ b, now.pool.waiters ≠ [] → b ∉ now.asked → (now.pool.poll b).1 = none) ∧
    (∀ a ∈ now.pool.waiters, now.pool.poll a = (none, now.pool) ∧ ∀ move, move ≠ .cancel a →
      a ∈ (now.perform move).pool.waiters ∨ a ∈ (now.perform move).pool.receivers) ∧
    (∀ a ∈ now.pending, a ∈ now.asked → a ∈ now.pool.receivers ∨ a ∈ now.pool.waiters) ∧
    ∀ oldest rest, now.pool.waiters = oldest :: rest →
      (∀ item, (now.pool.release item).waiters = rest ∧
        (now.pool.release item).delivered = now.pool.delivered ++ [(oldest, item)]) ∧
      ∀ gone item between, now.pool.take? gone = some (item, between) →
        (now.pool.cancel gone).waiters = rest ∧
          (now.pool.cancel gone).delivered = between.delivered ++ [(oldest, item)] := by
  intro before now
  have sound : now.Sound capacity := (Sound.opened built).run (earlier ++ later)
  have grows : before.asked <+: now.asked := by
    show before.asked <+: ((opened pool build).run (earlier ++ later)).asked
    rw [run_append]
    exact before.asked_prefix_run later
  have positive := (Pool.ofFactory_eq_ok_iff.mp built).1
  refine ⟨sound.inOrder, ?_, ?_, ?_, ?_, ?_⟩
  · intro a b first second unserved stays
    have behind := sound.not_overtaken grows first second unserved stays
    have notGiven : b ∉ now.pool.receivers := fun given => behind (sound.served_of_received given)
    have waiting := ((sound.mem_line a).mp ⟨grows.subset first, stays⟩).resolve_left unserved
    exact ⟨behind, notGiven, sound.poll_behind_waiting (List.ne_nil_of_mem waiting) notGiven⟩
  · intro b someWait new
    exact sound.poll_behind_waiting someWait (sound.not_received_of_unasked new)
  · intro a waiting
    exact ⟨sound.poll_of_waiting waiting, fun move stays => sound.stays_or_receives waiting stays⟩
  · intro a pending asked
    exact sound.receives_or_waits pending asked
  · intro oldest rest waiting
    have someOut : now.pool.outstanding ≠ 0 := by
      refine (sound.outstanding_of_waiting positive ?_).2
      rw [waiting]
      exact List.cons_ne_nil oldest rest
    refine ⟨fun item => release_to_oldest item waiting someOut, ?_⟩
    intro gone item between taken
    have given := Pool.takes_of_take? taken
    rw [Pool.cancel, taken]
    exact release_to_oldest item (given.waiters_eq.trans waiting) (given.outstanding_eq ▸ someOut)

/-- While one acquirer waits for the only instance, which is lost, nobody who asks later is served. -/
theorem acquirers_are_served_in_order_after_loss :
    Pool.ofFactory 1 (Instance.made fun _ => 0) = .ok ⟨1, [⟨0, 0⟩], 0, [], []⟩ ∧
      2 ∉ ((opened ⟨1, [⟨0, 0⟩], 0, [], []⟩ fun _ => 0).run
        [.create, .create, .create, .poll 0, .poll 1, .lose 0, .poll 2]).served := by
  have built : Pool.ofFactory 1 (Instance.made fun _ => 0) = .ok ⟨1, [⟨0, 0⟩], 0, [], []⟩ := rfl
  refine ⟨built, ?_⟩
  exact ((acquirers_are_served_in_order built [.create, .create, .create, .poll 0, .poll 1]
    [.lose 0, .poll 2]).2.1 1 2 (by decide) (by decide) (by decide) (by decide)).1

end MeteredVm.Session
