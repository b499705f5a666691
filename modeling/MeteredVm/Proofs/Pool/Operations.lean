import MeteredVm.Pool.Basic
import Mathlib.Tactic.Common

/-!
What the operations of a pool do, said in terms of who waits and where the instances are. Each operation is described
once, case by case; the places in the queue that are closed no longer matter.
-/

set_option autoImplicit false
set_option relaxedAutoImplicit false

namespace MeteredVm

/-- Those who wait in a queue, oldest first. -/
def Waiter.standing (queue : List Waiter) : List Nat :=
  (queue.filter (·.isOpen)).map (·.ticket)

namespace Waiter

@[simp] theorem standing_nil : standing [] = [] := rfl

private theorem standing_joined (queue : List Waiter) (ticket : Nat) :
    standing (queue.filter (·.isOpen) ++ [⟨ticket, true⟩]) = standing queue ++ [ticket] := by
  simp [standing]

private theorem standing_dropWhile (queue : List Waiter) :
    standing (queue.dropWhile fun waiter => !waiter.isOpen) = standing queue := by
  induction queue with
  | nil => rfl
  | cons waiter rest ih =>
    cases h : waiter.isOpen with
    | true => simp [h]
    | false =>
      rw [List.dropWhile_cons, h]
      simpa [standing, List.filter_cons, h] using ih

private theorem standing_closed (queue : List Waiter) (ticket : Nat) :
    standing (queue.map fun waiter => if waiter.ticket == ticket then { waiter with isOpen := false } else waiter) =
      (standing queue).filter (· ≠ ticket) := by
  induction queue with
  | nil => rfl
  | cons waiter rest ih =>
    by_cases same : waiter.ticket = ticket
    · cases h : waiter.isOpen <;> simpa [standing, List.filter_cons, same, h] using ih
    · cases h : waiter.isOpen <;> simpa [standing, List.filter_cons, same, h] using ih

end Waiter

namespace Pool

variable {α : Type} {pool after : Pool α} {ticket : Nat} {item : α} {answer : Option α}

abbrev waiters (pool : Pool α) : List Nat := Waiter.standing pool.queue

/-- Those who have not taken the instance given to them, in the order in which they were given one. -/
abbrev receivers (pool : Pool α) : List Nat := pool.delivered.map Prod.fst

/-- The instances that are with the pool: idle, or given to an acquirer who has not taken them. -/
def stock (pool : Pool α) : List α := pool.idle ++ pool.delivered.map Prod.snd

theorem waitingCount_eq (pool : Pool α) : pool.waitingCount = pool.waiters.length := by
  simp [waitingCount, Waiter.standing, List.countP_eq_length_filter]

theorem isWaiting_iff : pool.isWaiting ticket = true ↔ ticket ∈ pool.waiters := by
  simp [isWaiting, Waiter.standing, List.any_eq_true, and_assoc]

theorem ofFactory_eq_ok_iff {capacity : Nat} {make : Nat → α} :
    ofFactory capacity make = .ok pool ↔
      0 < capacity ∧ capacity ≤ maxCapacity ∧
        pool = ⟨capacity, ((List.range capacity).map make).reverse, 0, [], []⟩ := by
  unfold ofFactory
  by_cases empty : capacity = 0
  · simp [empty]
  · by_cases many : maxCapacity < capacity
    · simp [empty, many, Nat.not_le.mpr many]
    · simp [empty, many, Nat.pos_of_ne_zero empty, Nat.not_lt.mp many, eq_comm]

inductive Receives (before : Pool α) (item : α) : Pool α → Prop where
  /-- Every instance is back already, and this one is dropped. -/
  | drops (nothingOut : before.outstanding = 0) : Receives before item before
  | gives (ticket : Nat) (queue : List Waiter) (someOut : before.outstanding ≠ 0)
      (oldest : before.waiters = ticket :: Waiter.standing queue) :
      Receives before item { before with queue, delivered := before.delivered ++ [(ticket, item)] }
  | keeps (someOut : before.outstanding ≠ 0) (nobody : before.waiters = []) :
      Receives before item
        { before with queue := [], outstanding := before.outstanding - 1, idle := item :: before.idle }

theorem release_receives (pool : Pool α) (item : α) : pool.Receives item (pool.release item) := by
  unfold release
  by_cases nothingOut : pool.outstanding = 0
  · rw [if_pos nothingOut]
    exact .drops nothingOut
  · rw [if_neg nothingOut]
    have standing := Waiter.standing_dropWhile pool.queue
    have front := List.head?_dropWhile_not (fun waiter : Waiter => !waiter.isOpen) pool.queue
    cases h : pool.queue.dropWhile fun waiter => !waiter.isOpen with
    | nil =>
      rw [h] at standing
      exact .keeps nothingOut standing.symm
    | cons waiter queue =>
      rw [h] at standing front
      have wanted : waiter.isOpen = true := by simpa using front
      refine .gives waiter.ticket queue nothingOut ?_
      rw [waiters, ← standing]
      simp [Waiter.standing, wanted]

theorem Receives.stock_perm (received : pool.Receives item after) (someOut : pool.outstanding ≠ 0) :
    after.stock.Perm (item :: pool.stock) := by
  cases received with
  | drops nothingOut => exact absurd nothingOut someOut
  | gives ticket queue =>
    simp only [stock, List.map_append, List.map_cons, List.map_nil, ← List.append_assoc]
    exact List.perm_append_singleton item _
  | keeps => exact List.Perm.refl _

theorem Receives.outstanding_eq (received : pool.Receives item after) (someOut : pool.outstanding ≠ 0) :
    after.delivered.length + pool.outstanding = pool.delivered.length + after.outstanding + 1 := by
  cases received with
  | drops nothingOut => exact absurd nothingOut someOut
  | gives ticket queue =>
    simp only [List.length_append, List.length_singleton]
    omega
  | keeps =>
    simp only
    omega

inductive Takes (before : Pool α) (ticket : Nat) (item : α) : Pool α → Prop where
  | mk (earlier later : List (Nat × α)) (first : ticket ∉ earlier.map Prod.fst)
      (given : before.delivered = earlier ++ (ticket, item) :: later) :
      Takes before ticket item { before with delivered := earlier ++ later }

theorem Takes.stock_perm (taken : pool.Takes ticket item after) : pool.stock.Perm (item :: after.stock) := by
  obtain ⟨earlier, later, _, given⟩ := taken
  rw [stock, given, stock, List.map_append, List.map_cons, List.map_append, ← List.append_assoc, ← List.append_assoc]
  exact List.perm_middle

theorem Takes.length_eq (taken : pool.Takes ticket item after) :
    pool.delivered.length = after.delivered.length + 1 := by
  obtain ⟨earlier, later, _, given⟩ := taken
  rw [given, List.length_append, List.length_append, List.length_cons]
  omega

theorem Takes.mem_receivers (taken : pool.Takes ticket item after) : ticket ∈ pool.receivers := by
  obtain ⟨earlier, later, _, given⟩ := taken
  rw [receivers, given]
  simp

theorem Takes.outstanding_eq (taken : pool.Takes ticket item after) : after.outstanding = pool.outstanding := by
  cases taken
  rfl

theorem Takes.waiters_eq (taken : pool.Takes ticket item after) : after.waiters = pool.waiters := by
  cases taken
  rfl

private theorem take?_eq_none (h : pool.take? ticket = none) : ticket ∉ pool.receivers := by
  unfold take? at h
  cases found : pool.delivered.lookup ticket with
  | some item => simp [found] at h
  | none =>
    rw [List.lookup_eq_none_iff] at found
    intro given
    obtain ⟨entry, mem, rfl⟩ := List.mem_map.mp given
    simpa using found entry mem

theorem takes_of_take? (h : pool.take? ticket = some (item, after)) : pool.Takes ticket item after := by
  unfold take? at h
  cases found : pool.delivered.lookup ticket with
  | none => simp [found] at h
  | some found' =>
    rw [found] at h
    obtain ⟨rfl, rfl⟩ : found' = item ∧ _ = after := by simpa using h
    obtain ⟨earlier, later, given, first⟩ := List.lookup_eq_some_iff.mp found
    have absent : ∀ entry ∈ earlier, ¬(entry.1 == ticket) = true := fun entry mem same => by
      simpa [beq_iff_eq.mp same] using first entry mem
    have erased : (pool.delivered.eraseP fun entry => entry.1 == ticket) = earlier ++ later := by
      rw [given, List.eraseP_append_right _ absent, List.eraseP_cons_of_pos (by simp)]
    rw [erased]
    refine .mk earlier later (fun mem => ?_) given
    obtain ⟨entry, mem, same⟩ := List.mem_map.mp mem
    exact absent entry mem (by simpa using same)

inductive Asks (before : Pool α) (ticket : Nat) : Option α → Pool α → Prop where
  | takes (item : α) (after : Pool α) (given : before.Takes ticket item after) : Asks before ticket (some item) after
  | waits (waiting : ticket ∈ before.waiters) : Asks before ticket none before
  | isHanded (item : α) (idle : List α) (notGiven : ticket ∉ before.receivers) (notWaiting : ticket ∉ before.waiters)
      (top : before.idle = item :: idle) :
      Asks before ticket (some item) { before with idle, outstanding := before.outstanding + 1 }
  | joins (queue : List Waiter) (notGiven : ticket ∉ before.receivers) (notWaiting : ticket ∉ before.waiters)
      (noneIdle : before.idle = []) (last : Waiter.standing queue = before.waiters ++ [ticket]) :
      Asks before ticket none { before with queue }

theorem Asks.stock_eq (asked : pool.Asks ticket none after) : after.stock = pool.stock := by
  cases asked <;> rfl

theorem Asks.stock_perm (asked : pool.Asks ticket (some item) after) : pool.stock.Perm (item :: after.stock) := by
  cases asked with
  | takes _ _ given => exact given.stock_perm
  | isHanded _ idle _ _ top =>
    rw [stock, top]
    exact List.Perm.refl _

theorem Asks.counts_eq (asked : pool.Asks ticket none after) :
    after.delivered.length = pool.delivered.length ∧ after.outstanding = pool.outstanding := by
  cases asked <;> exact ⟨rfl, rfl⟩

theorem Asks.outstanding_eq (asked : pool.Asks ticket (some item) after) :
    pool.delivered.length + after.outstanding = after.delivered.length + pool.outstanding + 1 := by
  cases asked with
  | takes _ _ given =>
    rw [given.length_eq, given.outstanding_eq]
    omega
  | isHanded =>
    simp only
    omega

theorem poll_asks (h : pool.poll ticket = (answer, after)) : pool.Asks ticket answer after := by
  unfold poll at h
  cases taken : pool.take? ticket with
  | some found =>
    obtain ⟨item, rest⟩ := found
    obtain ⟨rfl, rfl⟩ : some item = answer ∧ rest = after := by simpa [taken] using h
    exact .takes item rest (takes_of_take? taken)
  | none =>
    have notGiven := take?_eq_none taken
    by_cases waiting : pool.isWaiting ticket = true
    · obtain ⟨rfl, rfl⟩ : none = answer ∧ pool = after := by simpa [taken, waiting] using h
      exact .waits (isWaiting_iff.mp waiting)
    · have notWaiting : ticket ∉ pool.waiters := fun mem => waiting (isWaiting_iff.mpr mem)
      have requested : pool.request ticket = (answer, after) := by simpa [taken, waiting] using h
      unfold request at requested
      split at requested
      · obtain ⟨rfl, rfl⟩ := Prod.mk.inj requested
        rename_i item idle top
        exact .isHanded item idle notGiven notWaiting top
      · obtain ⟨rfl, rfl⟩ := Prod.mk.inj requested
        rename_i noneIdle
        exact .joins _ notGiven notWaiting noneIdle (Waiter.standing_joined pool.queue ticket)

inductive GivesUp (before : Pool α) (ticket : Nat) : Pool α → Prop where
  | returns (item : α) (between after : Pool α) (given : before.Takes ticket item between)
      (received : between.Receives item after) : GivesUp before ticket after
  | leaves (queue : List Waiter) (notGiven : ticket ∉ before.receivers)
      (others : Waiter.standing queue = before.waiters.filter (· ≠ ticket)) :
      GivesUp before ticket { before with queue }

theorem cancel_givesUp (pool : Pool α) (ticket : Nat) : pool.GivesUp ticket (pool.cancel ticket) := by
  unfold cancel
  cases taken : pool.take? ticket with
  | some found =>
    obtain ⟨item, between⟩ := found
    exact .returns item between _ (takes_of_take? taken) (between.release_receives item)
  | none => exact .leaves _ (take?_eq_none taken) (Waiter.standing_closed pool.queue ticket)

end Pool

end MeteredVm
