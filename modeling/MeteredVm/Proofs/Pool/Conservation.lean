import MeteredVm.Proofs.Pool.Bookkeeping
import Mathlib.Data.List.Perm.Basic

/-!
Where the instances of a pool are. As long as callers return nothing but what they were handed, each instance that was
built is in one place: idle, given to an acquirer who has not taken it, held by a caller, or lost. The main statement
adds that the pool hands instances on as they were returned.
-/

set_option autoImplicit false
set_option relaxedAutoImplicit false

namespace MeteredVm.Session

open scoped List

variable {σ : Type}

/-- Every instance of a session is in one place, and in the state in which it was returned if it is with the pool. -/
structure Conserved (capacity : Nat) (session : Session σ) : Prop where
  places : ((session.pool.stock ++ session.held ++ session.lost).map (·.serial)).Perm (List.range capacity)
  outside : session.pool.outstanding = session.pool.delivered.length + session.held.length + session.lost.length
  asReturned : ∀ item ∈ session.pool.stock, item.state = session.record item.serial

namespace Conserved

variable {capacity ticket : Nat} {session : Session σ} {item : Instance σ}

private theorem serial_ne {kept : Instance σ} (h : session.Conserved capacity) (inStock : kept ∈ session.pool.stock)
    (held : item ∈ session.held) : kept.serial ≠ item.serial := by
  have once : ((session.pool.stock ++ session.held ++ session.lost).map (·.serial)).Nodup :=
    h.places.nodup_iff.mpr List.nodup_range
  rw [List.map_append, List.map_append] at once
  exact (List.nodup_append.mp (List.nodup_append.mp once).1).2.2 _ (List.mem_map_of_mem inStock) _
    (List.mem_map_of_mem held)

private theorem giveBack {held : List (Instance σ)} (h : session.Conserved capacity)
    (had : session.held.Perm (item :: held)) : ({ session with held }.giveBack item).Conserved capacity := by
  have count := had.length_eq
  rw [List.length_cons] at count
  have outside := h.outside
  have someOut : session.pool.outstanding ≠ 0 := by omega
  have received := session.pool.release_receives item
  have stock := received.stock_perm someOut
  refine ⟨?_, ?_, ?_⟩
  · refine List.Perm.trans (List.Perm.map _ ?_) h.places
    calc (session.pool.release item).stock ++ held ++ session.lost
      _ ~ item :: session.pool.stock ++ held ++ session.lost := (stock.append_right held).append_right _
      _ ~ session.pool.stock ++ item :: held ++ session.lost := List.perm_middle.symm.append_right _
      _ ~ session.pool.stock ++ session.held ++ session.lost := (had.symm.append_left _).append_right _
  · have moved := received.outstanding_eq someOut
    show (session.pool.release item).outstanding =
      (session.pool.release item).delivered.length + held.length + session.lost.length
    omega
  · intro kept mem
    rcases List.mem_cons.mp (stock.mem_iff.mp mem) with rfl | inStock
    · exact (if_pos rfl).symm
    -- serial numbers tell instances apart, so what is recorded of the others stays
    · have other := h.serial_ne inStock (had.mem_iff.mpr List.mem_cons_self)
      exact (h.asReturned kept inStock).trans (if_neg other).symm

private theorem poll (h : session.Conserved capacity) : (session.poll ticket).Conserved capacity := by
  unfold Session.poll
  rcases polled : session.pool.poll ticket with ⟨answer, pool⟩
  have asked := Pool.poll_asks polled
  cases answer with
  | none =>
    obtain ⟨delivered, outstanding⟩ := asked.counts_eq
    refine ⟨?_, ?_, ?_⟩
    · simpa only [asked.stock_eq] using h.places
    · simpa only [delivered, outstanding] using h.outside
    · simpa only [asked.stock_eq] using h.asReturned
  | some item =>
    have stock := asked.stock_perm
    refine ⟨?_, ?_, ?_⟩
    · refine List.Perm.trans (List.Perm.map _ ?_) h.places
      refine List.Perm.append_right _ ?_
      exact List.perm_middle.trans (stock.symm.append_right session.held)
    · have moved := asked.outstanding_eq
      have outside := h.outside
      simp only [List.length_cons]
      omega
    · intro kept mem
      exact h.asReturned kept (stock.mem_iff.mpr (List.mem_cons_of_mem _ mem))

private theorem cancel (h : session.Conserved capacity) : (session.cancel ticket).Conserved capacity := by
  have gaveUp := session.pool.cancel_givesUp ticket
  unfold Session.cancel withPool
  generalize session.pool.cancel ticket = pool at gaveUp
  have outside := h.outside
  cases gaveUp with
  | returns item between _ given received =>
    have count := given.length_eq
    have same := given.outstanding_eq
    have someOut : between.outstanding ≠ 0 := by omega
    have moved := received.outstanding_eq someOut
    have stock : pool.stock.Perm session.pool.stock := (received.stock_perm someOut).trans given.stock_perm.symm
    refine ⟨?_, ?_, ?_⟩
    · refine List.Perm.trans (List.Perm.map _ ?_) h.places
      exact (stock.append_right session.held).append_right session.lost
    · simp only
      omega
    · intro kept mem
      exact h.asReturned kept (stock.mem_iff.mp mem)
  | leaves => exact ⟨h.places, h.outside, h.asReturned⟩

private theorem uses {place : Nat} (h : session.Conserved capacity) (held : session.held[place]? = some item)
    (state : σ) :
    { session with held := session.held.set place { item with state } }.Conserved capacity := by
  obtain ⟨inside, found⟩ := List.getElem?_eq_some_iff.mp held
  have serials : (session.held.set place { item with state }).map (·.serial) = session.held.map (·.serial) := by
    refine List.ext_getElem? fun i => ?_
    by_cases same : place = i
    · subst same
      simp [inside, found]
    · simp [List.getElem?_set_ne same]
  refine ⟨?_, ?_, h.asReturned⟩
  · have places := h.places
    rw [List.map_append, List.map_append] at places ⊢
    rwa [serials]
  · simpa only [List.length_set] using h.outside

private theorem loses {held : List (Instance σ)} (h : session.Conserved capacity)
    (had : session.held.Perm (item :: held)) :
    { session with held, lost := item :: session.lost }.Conserved capacity := by
  refine ⟨?_, ?_, h.asReturned⟩
  · refine List.Perm.trans (List.Perm.map _ ?_) h.places
    rw [List.append_assoc, List.append_assoc]
    refine List.Perm.append_left _ ?_
    exact List.perm_middle.trans (had.symm.append_right session.lost)
  · have count := had.length_eq
    have outside := h.outside
    simp only [List.length_cons] at count ⊢
    omega

private theorem perform {move : Move σ} (h : session.Conserved capacity) (own : move.isOwn = true) :
    (session.perform move).Conserved capacity := by
  have had : ∀ {place : Nat} {item : Instance σ}, session.held[place]? = some item →
      session.held.Perm (item :: session.held.eraseIdx place) := by
    intro place item held
    obtain ⟨inside, rfl⟩ := List.getElem?_eq_some_iff.mp held
    exact (List.getElem_cons_eraseIdx_perm inside).symm
  have moved := session.perform_moved move
  generalize session.perform move = after at moved
  cases moved with
  | nothing => exact h
  | creates => exact { h with }
  | polls => exact h.poll
  | cancels => exact h.cancel
  | uses place state item held => exact h.uses held state
  | releases place item held => exact h.giveBack (had held)
  | loses place item held => exact h.loses (had held)
  | returns => exact absurd own Bool.false_ne_true

private theorem run {moves : List (Move σ)} (h : session.Conserved capacity) (own : ∀ move ∈ moves, move.isOwn = true) :
    (session.run moves).Conserved capacity := by
  induction moves generalizing session with
  | nil => exact h
  | cons move rest ih =>
    exact ih (h.perform (own move List.mem_cons_self)) fun later mem => own later (List.mem_cons_of_mem _ mem)

private theorem opened {pool : Pool (Instance σ)} {build : Nat → σ}
    (built : Pool.ofFactory capacity (Instance.made build) = .ok pool) :
    (Session.opened pool build).Conserved capacity := by
  obtain ⟨-, -, rfl⟩ := Pool.ofFactory_eq_ok_iff.mp built
  refine ⟨?_, rfl, ?_⟩
  · have serials : ((List.range capacity).map (Instance.made build)).map (·.serial) = List.range capacity := by
      rw [List.map_map]
      exact List.map_id _
    simp [Session.opened, Pool.stock, List.map_reverse, serials]
  · intro item mem
    obtain ⟨serial, -, rfl⟩ : ∃ serial, serial < capacity ∧ Instance.made build serial = item := by
      simpa [Session.opened, Pool.stock] using mem
    rfl

end Conserved

/-- Once nothing is held and nobody who asked is still there, every instance that is not lost is idle. -/
private theorem Conserved.at_rest {capacity : Nat} {session : Session σ} (h : session.Conserved capacity)
    (sound : session.Sound capacity) (nothingHeld : session.held = [])
    (nobodyAsking : ∀ t ∈ session.pending, t ∉ session.asked) :
    session.pool.idleCount = capacity - session.lost.length ∧ session.pool.waitingCount = 0 := by
  have nobodyWaits : session.pool.waiters = [] := by
    refine List.eq_nil_iff_forall_not_mem.mpr fun t waiting => ?_
    exact nobodyAsking t (sound.waitersPending t waiting) (sound.asked_of_waiting waiting)
  have nothingGiven : session.pool.receivers = [] := by
    refine List.eq_nil_iff_forall_not_mem.mpr fun t given => ?_
    obtain ⟨served, pending⟩ := (sound.receiversServed t).mp given
    exact nobodyAsking t pending (sound.asked_of_served served)
  constructor
  · have full := sound.full
    have outside := h.outside
    simp only [List.map_eq_nil_iff.mp nothingGiven, nothingHeld, List.length_nil] at outside
    rw [Pool.idleCount]
    omega
  · rw [Pool.waitingCount_eq, nobodyWaits, List.length_nil]

/-- Every instance that the pool was built with is always in one place, whatever callers do who return only what they
were handed: idle, given to one acquirer who has not taken it, held, or lost. What is with the pool, and what it hands
out, is in the state in which it was returned or built; no more instances are in use than there are; and once all are
returned that can be, and nobody asks any more, all but the lost ones are idle. -/
theorem instances_are_conserved {capacity : Nat} {build : Nat → σ} {pool : Pool (Instance σ)}
    (built : Pool.ofFactory capacity (Instance.made build) = .ok pool) {moves : List (Move σ)}
    (own : ∀ move ∈ moves, move.isOwn = true) :
    let session := (opened pool build).run moves
    (session.pool.idle ++ session.pool.delivered.map Prod.snd ++ session.held ++ session.lost).map (·.serial) ~
      List.range capacity ∧
    (session.pool.receivers.Nodup ∧ ∀ t ∈ session.pool.receivers, t ∈ session.pending) ∧
    (∀ item ∈ session.pool.idle ++ session.pool.delivered.map Prod.snd, item.state = session.record item.serial) ∧
    (∀ ticket item after, session.pool.poll ticket = (some item, after) → item.state = session.record item.serial) ∧
    (session.held.length + session.pool.delivered.length + session.pool.idleCount + session.lost.length = capacity ∧
      session.held.length + session.pool.delivered.length ≤ capacity) ∧
    (session.held = [] → (∀ t ∈ session.pending, t ∉ session.asked) →
      session.pool.idleCount = capacity - session.lost.length ∧ session.pool.waitingCount = 0) := by
  intro session
  have sound : session.Sound capacity := (Sound.opened built).run moves
  have conserved : session.Conserved capacity := (Conserved.opened built).run own
  have full := sound.full
  have outside := conserved.outside
  refine ⟨conserved.places, ⟨sound.receiversOnce, ?_⟩, conserved.asReturned, ?_, ⟨?_, ?_⟩, conserved.at_rest sound⟩
  · intro t given
    exact ((sound.receiversServed t).mp given).2
  · intro ticket item after polled
    have stock := (Pool.poll_asks polled).stock_perm
    exact conserved.asReturned item (stock.mem_iff.mpr List.mem_cons_self)
  · rw [Pool.idleCount]
    omega
  · omega

/-- One acquirer gives up with an instance given to it, which goes to the next one in its changed state. -/
theorem instances_are_conserved_through_cancellation :
    Pool.ofFactory 1 (Instance.made fun _ => 0) = .ok ⟨1, [⟨0, 0⟩], 0, [], []⟩ ∧
      let session := (opened ⟨1, [⟨0, 0⟩], 0, [], []⟩ fun _ => 0).run
        [.create, .create, .create, .poll 0, .poll 1, .poll 2, .use 0 9, .release 0, .cancel 1]
      session.pool.delivered = [(2, ⟨0, 9⟩)] ∧
        (session.pool.idle ++ session.pool.delivered.map Prod.snd ++ session.held ++ session.lost).map (·.serial) ~
          List.range 1 := by
  have built : Pool.ofFactory 1 (Instance.made fun _ => 0) = .ok ⟨1, [⟨0, 0⟩], 0, [], []⟩ := rfl
  exact ⟨built, by decide, (instances_are_conserved built (by decide)).1⟩

end MeteredVm.Session
