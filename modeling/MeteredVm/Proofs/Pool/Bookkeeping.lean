import MeteredVm.Proofs.Pool.Session

/-!
What stays true of a session whatever its moves are: instances idle and handed out make up the capacity, nobody waits
for an idle instance, and the acquirers who asked are, apart from those who withdrew, those who were served followed by
those who wait, all in the order in which they asked.
-/

set_option autoImplicit false
set_option relaxedAutoImplicit false

namespace MeteredVm.Session

variable {σ : Type}

/-- The books of a session with a pool of some capacity are in order. -/
structure Sound (capacity : Nat) (session : Session σ) : Prop where
  full : session.pool.idle.length + session.pool.outstanding = capacity
  unwanted : session.pool.idle ≠ [] → session.pool.waiters = []
  inOrder : session.asked.filter (· ∉ session.withdrawn) = session.served ++ session.pool.waiters
  askedOnce : session.asked.Nodup
  askedCreated : ∀ t ∈ session.asked, t < session.created
  pendingCreated : ∀ t ∈ session.pending, t < session.created
  withdrawnAsked : ∀ t ∈ session.withdrawn, t ∈ session.asked
  withdrawnGone : ∀ t ∈ session.withdrawn, t ∉ session.pending
  waitersPending : ∀ t ∈ session.pool.waiters, t ∈ session.pending
  receiversOnce : session.pool.receivers.Nodup
  receiversServed : ∀ t, t ∈ session.pool.receivers ↔ t ∈ session.served ∧ t ∈ session.pending

namespace Sound

variable {capacity : Nat} {session : Session σ} {ticket : Nat}

theorem mem_line (h : session.Sound capacity) (t : Nat) :
    t ∈ session.asked ∧ t ∉ session.withdrawn ↔ t ∈ session.served ∨ t ∈ session.pool.waiters := by
  rw [← List.mem_append, ← h.inOrder]
  simp

private theorem line_nodup (h : session.Sound capacity) : (session.served ++ session.pool.waiters).Nodup := by
  rw [← h.inOrder]
  exact h.askedOnce.filter _

theorem not_served_of_waiting (h : session.Sound capacity) (waiting : ticket ∈ session.pool.waiters) :
    ticket ∉ session.served := by
  intro served
  exact (List.nodup_append.mp h.line_nodup).2.2 ticket served ticket waiting rfl

private theorem not_withdrawn (h : session.Sound capacity) (pending : ticket ∈ session.pending) :
    ticket ∉ session.withdrawn := by
  intro withdrawn
  exact h.withdrawnGone ticket withdrawn pending

theorem receives_or_waits (h : session.Sound capacity) (pending : ticket ∈ session.pending)
    (asked : ticket ∈ session.asked) : ticket ∈ session.pool.receivers ∨ ticket ∈ session.pool.waiters := by
  rcases (h.mem_line ticket).mp ⟨asked, h.not_withdrawn pending⟩ with served | waiting
  · exact Or.inl ((h.receiversServed ticket).mpr ⟨served, pending⟩)
  · exact Or.inr waiting

private theorem not_asked (h : session.Sound capacity) (pending : ticket ∈ session.pending)
    (notGiven : ticket ∉ session.pool.receivers) (notWaiting : ticket ∉ session.pool.waiters) :
    ticket ∉ session.asked := by
  intro asked
  exact (h.receives_or_waits pending asked).elim notGiven notWaiting

theorem asked_of_waiting (h : session.Sound capacity) (waiting : ticket ∈ session.pool.waiters) :
    ticket ∈ session.asked :=
  ((h.mem_line ticket).mpr (Or.inr waiting)).1

theorem asked_of_served (h : session.Sound capacity) (served : ticket ∈ session.served) : ticket ∈ session.asked :=
  ((h.mem_line ticket).mpr (Or.inl served)).1

theorem served_of_received (h : session.Sound capacity) (received : ticket ∈ session.pool.receivers) :
    ticket ∈ session.served :=
  ((h.receiversServed ticket).mp received).1

private theorem asks_first (h : session.Sound capacity) (pending : ticket ∈ session.pending)
    (new : ticket ∉ session.asked) :
    (session.asked ++ [ticket]).Nodup ∧ (∀ t ∈ session.asked ++ [ticket], t < session.created) ∧
      ∀ t ∈ session.withdrawn, t ∈ session.asked ++ [ticket] := by
  refine ⟨?_, ?_, ?_⟩
  · refine List.nodup_append.mpr ⟨h.askedOnce, List.nodup_singleton _, ?_⟩
    rintro t mem _ (_ | ⟨_, ⟨⟩⟩) rfl
    exact new mem
  · intro t mem
    rcases List.mem_append.mp mem with old | last
    · exact h.askedCreated t old
    · rw [List.mem_singleton.mp last]
      exact h.pendingCreated ticket pending
  · intro t mem
    exact List.mem_append_left _ (h.withdrawnAsked t mem)

theorem gone (h : session.Sound capacity) (ticket : Nat) :
    (∀ t ∈ session.pending.filter (· ≠ ticket), t < session.created) ∧
      ∀ t ∈ session.withdrawn, t ∉ session.pending.filter (· ≠ ticket) := by
  constructor
  · intro t mem
    exact h.pendingCreated t (List.mem_filter.mp mem).1
  · intro t withdrawn mem
    exact h.withdrawnGone t withdrawn (List.mem_filter.mp mem).1

theorem outstanding_of_waiting (h : session.Sound capacity) (positive : 0 < capacity)
    (waiting : session.pool.waiters ≠ []) : session.pool.outstanding = capacity ∧ session.pool.outstanding ≠ 0 := by
  have noneIdle : session.pool.idle = [] := by
    by_contra someIdle
    exact waiting (h.unwanted someIdle)
  have full := h.full
  rw [noneIdle, List.length_nil] at full
  omega

theorem create (h : session.Sound capacity) : (session.perform .create).Sound capacity where
  full := h.full
  unwanted := h.unwanted
  inOrder := h.inOrder
  askedOnce := h.askedOnce
  askedCreated t mem := Nat.lt_succ_of_lt (h.askedCreated t mem)
  pendingCreated t mem := by
    rcases List.mem_cons.mp mem with rfl | old
    · exact Nat.lt_succ_self _
    · exact Nat.lt_succ_of_lt (h.pendingCreated t old)
  withdrawnAsked := h.withdrawnAsked
  withdrawnGone t mem new := by
    rcases List.mem_cons.mp new with rfl | old
    · exact Nat.lt_irrefl _ (h.askedCreated _ (h.withdrawnAsked _ mem))
    · exact h.withdrawnGone t mem old
  waitersPending t mem := List.mem_cons_of_mem _ (h.waitersPending t mem)
  receiversOnce := h.receiversOnce
  receiversServed t := by
    rw [show (session.perform .create).pool.receivers = session.pool.receivers from rfl, h.receiversServed t]
    constructor
    · rintro ⟨served, pending⟩
      exact ⟨served, List.mem_cons_of_mem _ pending⟩
    · rintro ⟨served, pending⟩
      rcases List.mem_cons.mp pending with rfl | old
      · exact absurd (h.askedCreated _ (h.asked_of_served served)) (Nat.lt_irrefl _)
      · exact ⟨served, old⟩

theorem taken {item : Instance σ} {pool : Pool (Instance σ)} (h : session.Sound capacity)
    (taken : session.pool.Takes ticket item pool) :
    { session with pool, pending := session.pending.filter (· ≠ ticket) }.Sound capacity := by
  have served : ticket ∈ session.served := h.served_of_received taken.mem_receivers
  obtain ⟨earlier, later, first, given⟩ := taken
  have once : (earlier.map Prod.fst ++ ticket :: later.map Prod.fst).Nodup := by
    have once := h.receiversOnce
    rwa [Pool.receivers, given, List.map_append, List.map_cons] at once
  obtain ⟨created, withdrawn⟩ := h.gone ticket
  refine { h with
    pendingCreated := created, withdrawnGone := withdrawn, waitersPending := ?_, receiversOnce := ?_,
    receiversServed := ?_ }
  · intro t waiting
    have other : t ≠ ticket := by
      rintro rfl
      exact h.not_served_of_waiting waiting served
    simpa [other] using h.waitersPending t waiting
  · rw [Pool.receivers, List.map_append]
    exact (List.nodup_middle.mp once).of_cons
  · intro t
    have gone := (List.nodup_cons.mp (List.nodup_middle.mp once)).1
    have others := h.receiversServed t
    rw [Pool.receivers, given] at others
    rw [Pool.receivers, List.map_append]
    by_cases same : t = ticket
    · subst same
      simpa using gone
    · simpa [same] using others

private theorem receives {item : Instance σ} {pool : Pool (Instance σ)} (h : session.Sound capacity)
    (received : session.pool.Receives item pool) : (session.withPool pool).Sound capacity := by
  have known : ∀ t ∈ session.pool.receivers, t ∈ session.served := fun t => h.served_of_received
  cases received with
  | drops nothingOut =>
    rw [withPool, noted_of_subset known]
    exact h
  | gives oldest queue someOut front =>
    -- the oldest waiter moves to the end of those served, so the line as a whole stays
    have waiting : oldest ∈ session.pool.waiters := by simp [front]
    have unserved := h.not_served_of_waiting waiting
    have served : noted session.served (session.pool.receivers ++ [oldest]) = session.served ++ [oldest] := by
      rw [noted_append_of_subset known, noted_singleton unserved]
    refine { h with unwanted := ?_, inOrder := ?_, waitersPending := ?_, receiversOnce := ?_, receiversServed := ?_ }
    · intro someIdle
      have nobody := h.unwanted someIdle
      rw [front] at nobody
      exact absurd nobody (List.cons_ne_nil oldest _)
    · simp only [withPool, Pool.receivers, List.map_append, List.map_cons, List.map_nil]
      rw [served, List.append_assoc, List.singleton_append, ← front]
      exact h.inOrder
    · intro t mem
      refine h.waitersPending t ?_
      rw [front]
      exact List.mem_cons_of_mem _ mem
    · simp only [withPool, Pool.receivers, List.map_append, List.map_cons, List.map_nil]
      refine List.nodup_append.mpr ⟨h.receiversOnce, List.nodup_singleton _, ?_⟩
      rintro t mem _ (_ | ⟨_, ⟨⟩⟩) rfl
      exact unserved (known t mem)
    · intro t
      simp only [withPool, Pool.receivers, List.map_append, List.map_cons, List.map_nil]
      rw [served, List.mem_append, List.mem_append, List.mem_singleton, h.receiversServed t]
      constructor
      · rintro (⟨served, pending⟩ | rfl)
        · exact ⟨Or.inl served, pending⟩
        · exact ⟨Or.inr rfl, h.waitersPending t waiting⟩
      · rintro ⟨served | rfl, pending⟩
        · exact Or.inl ⟨served, pending⟩
        · exact Or.inr rfl
  | keeps someOut nobody =>
    have full : (item :: session.pool.idle).length + (session.pool.outstanding - 1) = capacity := by
      have full := h.full
      rw [List.length_cons]
      omega
    have inOrder := h.inOrder
    rw [nobody] at inOrder
    rw [withPool, noted_of_subset known]
    refine { h with full := full, unwanted := ?_, inOrder := inOrder, waitersPending := ?_ }
    · intro _
      rfl
    · intro t mem
      exact absurd mem List.not_mem_nil

theorem isHanded {item : Instance σ} {idle : List (Instance σ)} (h : session.Sound capacity)
    (pending : ticket ∈ session.pending) (new : ticket ∉ session.asked) (top : session.pool.idle = item :: idle) :
    { session with
      pool := { session.pool with idle, outstanding := session.pool.outstanding + 1 }
      pending := session.pending.filter (· ≠ ticket)
      asked := session.asked ++ [ticket]
      served := session.served ++ [ticket] }.Sound capacity := by
  have nobody : session.pool.waiters = [] := by
    refine h.unwanted ?_
    rw [top]
    exact List.cons_ne_nil item idle
  obtain ⟨once, asked, withdrawnAsked⟩ := h.asks_first pending new
  obtain ⟨created, withdrawnGone⟩ := h.gone ticket
  refine { h with
    full := ?_, unwanted := ?_, inOrder := ?_, askedOnce := once, askedCreated := asked, pendingCreated := created,
    withdrawnAsked := withdrawnAsked, withdrawnGone := withdrawnGone, waitersPending := ?_, receiversServed := ?_ }
  · have full := h.full
    rw [top, List.length_cons] at full
    simp only
    omega
  · intro _
    exact nobody
  · have inOrder := h.inOrder
    rw [nobody, List.append_nil] at inOrder
    simp only [List.filter_append, inOrder, Pool.waiters, nobody]
    simp [h.not_withdrawn pending]
  · intro t waiting
    have impossible : t ∈ ([] : List Nat) := nobody ▸ waiting
    exact absurd impossible List.not_mem_nil
  · intro t
    have others := h.receiversServed t
    by_cases same : t = ticket
    · subst same
      have unserved : t ∉ session.served := fun served => new (h.asked_of_served served)
      simpa [unserved] using others
    · simpa [same] using others

theorem joins {queue : List Waiter} (h : session.Sound capacity) (pending : ticket ∈ session.pending)
    (new : ticket ∉ session.asked) (noneIdle : session.pool.idle = [])
    (last : Waiter.standing queue = session.pool.waiters ++ [ticket]) :
    { session with pool := { session.pool with queue }, asked := session.asked ++ [ticket] }.Sound capacity := by
  obtain ⟨once, asked, withdrawnAsked⟩ := h.asks_first pending new
  refine { h with
    unwanted := ?_, inOrder := ?_, askedOnce := once, askedCreated := asked, withdrawnAsked := withdrawnAsked,
    waitersPending := ?_ }
  · intro someIdle
    exact absurd noneIdle someIdle
  · simp only [List.filter_append, h.inOrder, Pool.waiters, last, List.append_assoc]
    simp [h.not_withdrawn pending]
  · intro t mem
    simp only [Pool.waiters, last] at mem
    rcases List.mem_append.mp mem with old | last
    · exact h.waitersPending t old
    · rw [List.mem_singleton.mp last]
      exact pending

theorem leaves {queue : List Waiter} {withdrawn : List Nat} (h : session.Sound capacity)
    (unserved : ticket ∉ session.served)
    (log : ∀ t, t ∈ withdrawn ↔ t ∈ session.withdrawn ∨ t = ticket ∧ ticket ∈ session.asked)
    (others : Waiter.standing queue = session.pool.waiters.filter (· ≠ ticket)) :
    { session with
      pool := { session.pool with queue }
      pending := session.pending.filter (· ≠ ticket)
      withdrawn }.Sound capacity := by
  -- the acquirer stood among those who wait, not among those served: only the second part of the line is filtered
  have served : session.served.filter (· ≠ ticket) = session.served := by
    refine List.filter_eq_self.mpr fun t mem => ?_
    have other : t ≠ ticket := fun same => unserved (same ▸ mem)
    simpa using other
  have inOrder : session.asked.filter (fun t => t ∉ session.withdrawn ∧ t ≠ ticket) =
      session.served ++ session.pool.waiters.filter (· ≠ ticket) := by
    have filtered := congrArg (List.filter (· ≠ ticket)) h.inOrder
    rw [List.filter_filter, List.filter_append, served] at filtered
    rw [← filtered]
    refine List.filter_congr fun t _ => ?_
    simp [and_comm]
  obtain ⟨created, -⟩ := h.gone ticket
  refine { h with
    unwanted := ?_, inOrder := ?_, pendingCreated := created, withdrawnAsked := ?_, withdrawnGone := ?_,
    waitersPending := ?_, receiversServed := ?_ }
  · intro someIdle
    simp only [Pool.waiters, others, h.unwanted someIdle, List.filter_nil]
  · simp only [Pool.waiters, others, ← inOrder]
    refine List.filter_congr fun t asked => ?_
    by_cases same : t = ticket
    · subst same
      simp [log, asked]
    · simp [log, same]
  · intro t mem
    rcases (log t).mp mem with old | ⟨rfl, asked⟩
    · exact h.withdrawnAsked t old
    · exact asked
  · intro t mem pending
    rcases (log t).mp mem with old | ⟨rfl, -⟩
    · exact h.withdrawnGone t old (List.mem_filter.mp pending).1
    · simp at pending
  · intro t mem
    simp only [Pool.waiters, others, List.mem_filter] at mem
    exact List.mem_filter.mpr ⟨h.waitersPending t mem.1, mem.2⟩
  · intro t
    have given := h.receiversServed t
    constructor
    · intro mem
      have other : t ≠ ticket := fun same => unserved (same ▸ (given.mp mem).1)
      exact ⟨(given.mp mem).1, List.mem_filter.mpr ⟨(given.mp mem).2, by simpa using other⟩⟩
    · rintro ⟨served, pending⟩
      exact given.mpr ⟨served, (List.mem_filter.mp pending).1⟩

private theorem poll (h : session.Sound capacity) (pending : ticket ∈ session.pending) :
    (session.poll ticket).Sound capacity := by
  unfold Session.poll
  rcases polled : session.pool.poll ticket with ⟨answer, pool⟩
  cases Pool.poll_asks polled with
  | takes item _ given =>
    have served := h.served_of_received given.mem_receivers
    have asked := h.asked_of_served served
    have after := h.taken given
    rw [noted_of_subset (by simpa using asked), noted_of_subset (by simpa using served)]
    exact { after with }
  | waits waiting =>
    have asked := h.asked_of_waiting waiting
    rw [noted_of_subset (by simpa using asked)]
    exact h
  -- only who never asked before comes to request an instance
  | isHanded item idle notGiven notWaiting top =>
    have new := h.not_asked pending notGiven notWaiting
    have unserved : ticket ∉ session.served := fun served => new (h.asked_of_served served)
    have after := h.isHanded pending new top
    rw [noted_singleton new, noted_singleton unserved]
    exact { after with }
  | joins queue notGiven notWaiting noneIdle last =>
    have new := h.not_asked pending notGiven notWaiting
    rw [noted_singleton new]
    exact h.joins pending new noneIdle last

private theorem cancel (h : session.Sound capacity) (pending : ticket ∈ session.pending) :
    (session.cancel ticket).Sound capacity := by
  have gaveUp := session.pool.cancel_givesUp ticket
  unfold Session.cancel
  generalize session.pool.cancel ticket = pool at gaveUp
  cases gaveUp with
  | returns item between _ given received =>
    have served := h.served_of_received given.mem_receivers
    have after := (h.taken given).receives received
    rw [if_neg (by simp [served])]
    exact { after with }
  | leaves queue notGiven others =>
    have unserved : ticket ∉ session.served := by
      intro served
      exact notGiven ((h.receiversServed ticket).mpr ⟨served, pending⟩)
    rw [withPool, noted_of_subset fun t => h.served_of_received]
    refine h.leaves unserved (fun t => ?_) others
    by_cases asked : ticket ∈ session.asked <;> simp [asked, unserved]

private theorem giveBack (h : session.Sound capacity) (item : Instance σ) : (session.giveBack item).Sound capacity :=
  { h.receives (session.pool.release_receives item) with }

theorem perform (h : session.Sound capacity) (move : Move σ) : (session.perform move).Sound capacity := by
  have moved := session.perform_moved move
  generalize session.perform move = after at moved
  cases moved with
  | nothing => exact h
  | creates => exact h.create
  | polls ticket pending => exact h.poll pending
  | cancels ticket pending => exact h.cancel pending
  | uses => exact { h with }
  | releases place item held =>
    have without : { session with held := session.held.eraseIdx place }.Sound capacity := { h with }
    exact without.giveBack item
  | loses => exact { h with }
  | returns item => exact h.giveBack item

theorem run (h : session.Sound capacity) (moves : List (Move σ)) : (session.run moves).Sound capacity := by
  induction moves generalizing session with
  | nil => exact h
  | cons move rest ih => exact ih (h.perform move)

theorem opened {pool : Pool (Instance σ)} {build : Nat → σ}
    (built : Pool.ofFactory capacity (Instance.made build) = .ok pool) :
    (Session.opened pool build).Sound capacity := by
  obtain ⟨-, -, rfl⟩ := Pool.ofFactory_eq_ok_iff.mp built
  constructor <;> simp [Session.opened, Pool.waiters, Pool.receivers]

end Sound

end MeteredVm.Session
