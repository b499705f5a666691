import MeteredVm.Pool.Desk
import MeteredVm.Proofs.Pool.Bookkeeping
import Mathlib.Data.List.Perm.Basic

/-!
What is done at a desk is what callers do with a pool. A pool never looks at its instances, so they may carry serial
numbers that nobody at the desk sees. The main statement is that every run at a desk is a run of a session; what holds
of every session holds at every desk.
-/

set_option autoImplicit false
set_option relaxedAutoImplicit false

namespace MeteredVm

open scoped List

namespace Pool

variable {α β : Type}

def map (f : α → β) (pool : Pool α) : Pool β where
  capacity := pool.capacity
  idle := pool.idle.map f
  outstanding := pool.outstanding
  queue := pool.queue
  delivered := pool.delivered.map (Prod.map id f)

private theorem map_release (f : α → β) (pool : Pool α) (item : α) :
    (pool.release item).map f = (pool.map f).release (f item) := by
  unfold release map
  by_cases nothingOut : pool.outstanding = 0
  · simp only [nothingOut, if_true]
  · simp only [nothingOut, if_false]
    cases pool.queue.dropWhile fun waiter => !waiter.isOpen with
    | nil => rfl
    | cons waiter queue => simp

private theorem lookup_map (f : α → β) (entries : List (Nat × α)) (ticket : Nat) :
    (entries.map (Prod.map id f)).lookup ticket = (entries.lookup ticket).map f := by
  induction entries with
  | nil => rfl
  | cons entry rest ih =>
    obtain ⟨other, item⟩ := entry
    cases same : ticket == other with
    | true => simp [List.lookup_cons, same]
    | false => simpa [List.lookup_cons, same] using ih

private theorem map_take? (f : α → β) (pool : Pool α) (ticket : Nat) :
    (pool.map f).take? ticket = (pool.take? ticket).map fun taken => (f taken.1, taken.2.map f) := by
  have looked : (pool.map f).delivered.lookup ticket = (pool.delivered.lookup ticket).map f :=
    lookup_map f pool.delivered ticket
  unfold take?
  rw [looked]
  cases pool.delivered.lookup ticket with
  | none => rfl
  | some item => simp [map, List.eraseP_map, Function.comp_def]

private theorem map_poll (f : α → β) (pool : Pool α) (ticket : Nat) :
    (pool.map f).poll ticket = ((pool.poll ticket).1.map f, (pool.poll ticket).2.map f) := by
  unfold poll
  rw [map_take?]
  cases pool.take? ticket with
  | some taken => rfl
  | none =>
    have same : (pool.map f).isWaiting ticket = pool.isWaiting ticket := rfl
    simp only [Option.map_none, same]
    cases pool.isWaiting ticket with
    | true => rfl
    | false =>
      show (pool.map f).request ticket = ((pool.request ticket).1.map f, (pool.request ticket).2.map f)
      unfold request
      cases h : pool.idle with
      | nil => simp [map, h]
      | cons item idle => simp [map, h]

private theorem map_cancel (f : α → β) (pool : Pool α) (ticket : Nat) :
    (pool.cancel ticket).map f = (pool.map f).cancel ticket := by
  unfold cancel
  rw [map_take?]
  cases pool.take? ticket with
  | some taken => exact map_release f taken.2 taken.1
  | none => rfl

private theorem map_ofFactory (f : α → β) (capacity : Nat) (make : Nat → α) :
    ofFactory capacity (fun serial => f (make serial)) = (ofFactory capacity make).map (Pool.map f) := by
  unfold ofFactory
  split
  · rfl
  · split
    · rfl
    · simp [Except.map, map, List.map_reverse, Function.comp_def]

end Pool

namespace Desk

/-- The names at a desk stand for the instances of a session. -/
structure Holds (entries : List (String × Machine)) (items : List (Instance Machine)) : Prop where
  names : (entries.map Prod.fst).Nodup
  states : items.map (·.state) ~ entries.map Prod.snd

/-- The acquirers at a desk are acquirers of a session with the same pool. -/
structure Serves (desk : Desk) (session : Session Machine) : Prop where
  pool : session.pool.map (·.state) = desk.pool
  tickets : session.created = desk.nextTicket
  pending : ∀ entry ∈ desk.acquirers, entry.2 ∈ session.pending
  once : (desk.acquirers.map Prod.snd).Nodup

structure Plays (desk : Desk) (session : Session Machine) : Prop where
  serves : desk.Serves session
  holds : Holds desk.held session.held

variable {capacity : Nat} {desk : Desk} {session : Session Machine} {id : String} {machine : Machine}
  {entries : List (String × Machine)} {items : List (Instance Machine)}

private theorem mem_of_lookup {γ : Type} {entries : List (String × γ)} {value : γ}
    (found : entries.lookup id = some value) :
    (id, value) ∈ entries := by
  obtain ⟨earlier, later, rfl, -⟩ := List.lookup_eq_some_iff.mp found
  simp

private theorem without_eq_self (absent : entries.lookup id = none) : without id entries = entries := by
  rw [List.lookup_eq_none_iff] at absent
  refine List.filter_eq_self.mpr fun entry mem => ?_
  have other := absent entry mem
  rw [bne_iff_ne] at other ⊢
  exact Ne.symm other

private theorem not_mem_names_without : id ∉ (without id entries).map Prod.fst := by
  intro mem
  obtain ⟨entry, kept, same⟩ := List.mem_map.mp mem
  have other := (List.mem_filter.mp kept).2
  rw [same] at other
  simp at other

private theorem perm_without (names : (entries.map Prod.fst).Nodup) (found : entries.lookup id = some machine) :
    entries ~ (id, machine) :: without id entries := by
  obtain ⟨earlier, later, rfl, -⟩ := List.lookup_eq_some_iff.mp found
  rw [List.map_append, List.map_cons] at names
  have others := (List.nodup_cons.mp (List.nodup_middle.mp names)).1
  rw [← List.map_append] at others
  have kept : without id (earlier ++ later) = earlier ++ later := by
    refine without_eq_self (List.lookup_eq_none_iff.mpr fun entry mem => ?_)
    rw [bne_iff_ne]
    intro same
    rw [same] at others
    exact others (List.mem_map.mpr ⟨entry, mem, rfl⟩)
  have filtered : without id (earlier ++ (id, machine) :: later) = earlier ++ later := by
    rw [← kept, without, without, List.filter_append, List.filter_append, List.filter_cons_of_neg (by simp)]
  rw [filtered]
  exact List.perm_middle

private theorem Holds.takes (h : Holds entries items) (found : entries.lookup id = some machine) :
    ∃ place item, items[place]? = some item ∧ item.state = machine ∧
      Holds (without id entries) (items.eraseIdx place) := by
  have split := perm_without h.names found
  have states : items.map (·.state) ~ machine :: (without id entries).map Prod.snd :=
    h.states.trans (split.map Prod.snd)
  obtain ⟨item, mem, rfl⟩ := List.mem_map.mp (states.mem_iff.mpr List.mem_cons_self)
  obtain ⟨place, inside, rfl⟩ := List.getElem_of_mem mem
  refine ⟨place, items[place], List.getElem?_eq_getElem inside, rfl, ?_, ?_⟩
  · exact (List.filter_sublist.map Prod.fst).nodup h.names
  · have picked := (List.getElem_cons_eraseIdx_perm inside).map (·.state)
    exact List.Perm.cons_inv (picked.trans states)

private theorem Holds.put (h : Holds entries items) (item : Instance Machine) (new : id ∉ entries.map Prod.fst) :
    Holds ((id, item.state) :: entries) (item :: items) :=
  ⟨List.nodup_cons.mpr ⟨new, h.names⟩, h.states.cons item.state⟩

private theorem Serves.poll (h : desk.Serves session) (ticket : Nat) :
    desk.pool.poll ticket =
      ((session.pool.poll ticket).1.map (·.state), (session.pool.poll ticket).2.map (·.state)) := by
  rw [← h.pool]
  exact session.pool.map_poll _ ticket

private theorem Serves.without {ticket : Nat} (h : desk.Serves session)
    (found : desk.acquirers.lookup id = some ticket) :
    (∀ entry ∈ Desk.without id desk.acquirers, entry.2 ∈ session.pending.filter (· ≠ ticket)) ∧
      ((Desk.without id desk.acquirers).map Prod.snd).Nodup := by
  constructor
  · intro entry mem
    obtain ⟨known, other⟩ := List.mem_filter.mp mem
    refine List.mem_filter.mpr ⟨h.pending entry known, ?_⟩
    rw [decide_eq_true_eq]
    intro same
    have one := List.inj_on_of_nodup_map h.once known (mem_of_lookup found) same
    simp [one] at other
  · exact (List.filter_sublist.map Prod.snd).nodup h.once

private theorem dismiss_plays (h : desk.Plays session) (id : String) :
    ∃ moves, (∀ move ∈ moves, move.isOwn = true) ∧ (desk.dismiss id).Plays (session.run moves) := by
  unfold dismiss
  cases found : desk.acquirers.lookup id with
  | none => exact ⟨[], by simp, h⟩
  | some ticket =>
    obtain ⟨pending, once⟩ := h.serves.without found
    have known := h.serves.pending _ (mem_of_lookup found)
    refine ⟨[.cancel ticket], by simp [Move.isOwn], ?_⟩
    rw [Session.run_cons, Session.run_nil, Session.perform, if_pos known]
    refine ⟨⟨?_, h.serves.tickets, pending, once⟩, h.holds⟩
    show (session.pool.cancel ticket).map (·.state) = desk.pool.cancel ticket
    rw [Pool.map_cancel, h.serves.pool]

private theorem enroll_plays (h : desk.Plays session) (sound : session.Sound capacity) (id : String) :
    ∃ moves, (∀ move ∈ moves, move.isOwn = true) ∧ (desk.enroll id).Plays (session.run moves) := by
  obtain ⟨moves, own, plays⟩ := dismiss_plays h id
  have bounded := (sound.run moves).pendingCreated
  refine ⟨moves ++ [.create], ?_, ?_⟩
  · simpa [Move.isOwn, or_imp, forall_and] using own
  · rw [Session.run_append, Session.run_cons, Session.run_nil, Session.perform]
    have tickets := plays.serves.tickets
    refine ⟨⟨plays.serves.pool, congrArg (· + 1) tickets, ?_, ?_⟩, plays.holds⟩
    · intro entry mem
      rcases List.mem_cons.mp mem with rfl | old
      · exact List.mem_cons.mpr (Or.inl tickets.symm)
      · exact List.mem_cons_of_mem _ (plays.serves.pending entry old)
    · refine List.nodup_cons.mpr ⟨fun mem => ?_, plays.serves.once⟩
      obtain ⟨entry, old, same⟩ := List.mem_map.mp mem
      have below := bounded _ (plays.serves.pending entry old)
      rw [same, tickets] at below
      exact Nat.lt_irrefl _ below

private theorem hold_plays {item : Instance Machine} (serves : desk.Serves session) (holds : Holds desk.held items)
    (handed : session.held = item :: items) (id : String) :
    ∃ moves, (∀ move ∈ moves, move.isOwn = true) ∧ (desk.hold id item.state).Plays (session.run moves) := by
  unfold hold
  cases found : desk.held.lookup id with
  | none =>
    refine ⟨[], by simp, ⟨serves.pool, serves.tickets, serves.pending, serves.once⟩, ?_⟩
    rw [Session.run_nil, handed]
    have rest : Holds (Desk.without id desk.held) items := by rwa [without_eq_self found]
    exact rest.put item not_mem_names_without
  | some machine =>
    obtain ⟨place, old, at_, -, rest⟩ := holds.takes found
    have placed : session.held[place + 1]? = some old := by rw [handed, List.getElem?_cons_succ, at_]
    refine ⟨[.lose (place + 1)], by simp [Move.isOwn], ?_⟩
    rw [Session.run_cons, Session.run_nil, Session.perform, placed]
    refine ⟨⟨serves.pool, serves.tickets, serves.pending, serves.once⟩, ?_⟩
    rw [handed, List.eraseIdx_cons_succ]
    exact rest.put item not_mem_names_without

private theorem ask_plays (h : desk.Plays session) (id : String) :
    ∃ moves, (∀ move ∈ moves, move.isOwn = true) ∧ (desk.ask id).2.Plays (session.run moves) := by
  unfold ask
  cases found : desk.acquirers.lookup id with
  | none => exact ⟨[], by simp, h⟩
  | some ticket =>
    have known := h.serves.pending _ (mem_of_lookup found)
    have performed : session.perform (.poll ticket) = session.poll ticket := if_pos known
    have polled := h.serves.poll ticket
    simp only [polled]
    unfold Session.poll at performed
    rcases answered : session.pool.poll ticket with ⟨answer, pool⟩
    rw [answered] at performed
    cases answer with
    | none =>
      refine ⟨[.poll ticket], by simp [Move.isOwn], ?_⟩
      rw [Session.run_cons, Session.run_nil, performed]
      exact ⟨⟨rfl, h.serves.tickets, h.serves.pending, h.serves.once⟩, h.holds⟩
    | some item =>
      obtain ⟨pending, once⟩ := h.serves.without found
      have serves : ({ desk with
          pool := pool.map (·.state), acquirers := Desk.without id desk.acquirers } : Desk).Serves
          (session.perform (.poll ticket)) := by
        rw [performed]
        exact ⟨rfl, h.serves.tickets, pending, once⟩
      -- the name may have stood for another machine, which cannot be returned any more
      obtain ⟨moves, own, plays⟩ := hold_plays serves h.holds (by rw [performed]) id
      exact ⟨.poll ticket :: moves, by simpa [Move.isOwn] using own, plays⟩

private theorem change_plays (h : desk.Plays session) (found : desk.held.lookup id = some machine) (changed : Machine) :
    ∃ moves, (∀ move ∈ moves, move.isOwn = true) ∧ (desk.hold id changed).Plays (session.run moves) := by
  obtain ⟨place, item, at_, -, rest⟩ := h.holds.takes found
  obtain ⟨inside, rfl⟩ := List.getElem?_eq_some_iff.mp at_
  refine ⟨[.use place changed], by simp [Move.isOwn], ?_⟩
  rw [Session.run_cons, Session.run_nil, Session.perform, at_]
  refine ⟨⟨h.serves.pool, h.serves.tickets, h.serves.pending, h.serves.once⟩, ?_⟩
  have put := rest.put ⟨session.held[place].serial, changed⟩ not_mem_names_without
  exact ⟨put.names, ((List.set_perm_cons_eraseIdx inside _).map _).trans put.states⟩

/-- What is done at a desk is some moves of a session, which return nothing foreign unless that is what is done. -/
private theorem perform_plays (h : desk.Plays session) (sound : session.Sound capacity) (operation : Operation) :
    ∃ moves, ((∀ tag, operation ≠ .releaseForeign tag) → ∀ move ∈ moves, move.isOwn = true) ∧
      (desk.perform operation).2.Plays (session.run moves) := by
  have idle : ∃ moves : List (Move Machine), ((∀ tag, operation ≠ .releaseForeign tag) →
      ∀ move ∈ moves, move.isOwn = true) ∧ desk.Plays (session.run moves) := ⟨[], by simp, h⟩
  cases operation with
  | acquire id =>
    obtain ⟨first, ownFirst, enrolled⟩ := enroll_plays h sound id
    obtain ⟨second, ownSecond, asked⟩ := ask_plays enrolled id
    refine ⟨first ++ second, fun _ move mem => ?_, ?_⟩
    · exact (List.mem_append.mp mem).elim (ownFirst move) (ownSecond move)
    · rw [Session.run_append]
      exact asked
  | acquireLater id =>
    obtain ⟨moves, own, plays⟩ := enroll_plays h sound id
    exact ⟨moves, fun _ => own, plays⟩
  | poll id =>
    obtain ⟨moves, own, plays⟩ := ask_plays h id
    exact ⟨moves, fun _ => own, plays⟩
  | cancel id =>
    rw [perform]
    split
    · obtain ⟨moves, own, plays⟩ := dismiss_plays h id
      exact ⟨moves, fun _ => own, plays⟩
    · exact idle
  | release id =>
    cases found : desk.held.lookup id with
    | none => simpa only [perform, found] using idle
    | some machine =>
      obtain ⟨place, item, at_, rfl, rest⟩ := h.holds.takes found
      refine ⟨[.release place], fun _ => by simp [Move.isOwn], ?_⟩
      rw [Session.run_cons, Session.run_nil, Session.perform, at_]
      simp only [perform, found]
      refine ⟨⟨?_, h.serves.tickets, h.serves.pending, h.serves.once⟩, rest⟩
      show (session.pool.release item).map (·.state) = desk.pool.release item.state
      rw [Pool.map_release, h.serves.pool]
  | lose id =>
    cases found : desk.held.lookup id with
    | none => simpa only [perform, found] using idle
    | some machine =>
      obtain ⟨place, item, at_, -, rest⟩ := h.holds.takes found
      refine ⟨[.lose place], fun _ => by simp [Move.isOwn], ?_⟩
      rw [Session.run_cons, Session.run_nil, Session.perform, at_]
      simp only [perform, found]
      exact ⟨⟨h.serves.pool, h.serves.tickets, h.serves.pending, h.serves.once⟩, rest⟩
  | tag id tag =>
    cases found : desk.held.lookup id with
    | none => simpa only [perform, found] using idle
    | some machine =>
      obtain ⟨moves, own, plays⟩ := change_plays h found (machine.tagged tag)
      exact ⟨moves, fun _ => own, by simpa only [perform, found] using plays⟩
  | releaseForeign tag =>
    let machine := (Machine.idle Machine.defaultInstructionGas).tagged tag
    refine ⟨[.foreign ⟨0, machine⟩], fun own => absurd rfl (own tag), ?_⟩
    refine ⟨⟨?_, h.serves.tickets, h.serves.pending, h.serves.once⟩, h.holds⟩
    show (session.pool.release ⟨0, machine⟩).map (·.state) = desk.pool.release machine
    rw [Pool.map_release, h.serves.pool]
  | run id program pc gas registers memory =>
    cases found : desk.held.lookup id with
    | none => simpa only [perform, found] using idle
    | some machine =>
      cases stopped : (machine.reset program pc gas registers memory).run? with
      | none => simpa only [perform, found, stopped] using idle
      | some machine =>
        obtain ⟨moves, own, plays⟩ := change_plays h found machine
        exact ⟨moves, fun _ => own, by simpa only [perform, found, stopped] using plays⟩
  | count => exact idle

/-- Each desk of a run looks like a session, whose moves return nothing foreign unless something foreign is returned. -/
private theorem performAll_plays {operations : List Operation} (h : desk.Plays session) (sound : session.Sound capacity)
    {entry : Answer × Desk} (mem : entry ∈ desk.performAll operations) :
    ∃ moves, ((∀ tag, .releaseForeign tag ∉ operations) → ∀ move ∈ moves, move.isOwn = true) ∧
      entry.2.Plays (session.run moves) := by
  induction operations generalizing desk session with
  | nil => exact absurd mem List.not_mem_nil
  | cons operation rest ih =>
    obtain ⟨first, ownFirst, performed⟩ := perform_plays h sound operation
    have ownOperation : (∀ tag, .releaseForeign tag ∉ operation :: rest) → ∀ move ∈ first, move.isOwn = true := by
      intro own
      exact ownFirst fun tag same => own tag (same ▸ List.mem_cons_self)
    rcases List.mem_cons.mp mem with rfl | later
    · exact ⟨first, ownOperation, performed⟩
    · obtain ⟨second, ownSecond, plays⟩ := ih performed (sound.run first) later
      refine ⟨first ++ second, fun own move either => ?_, ?_⟩
      · rcases List.mem_append.mp either with early | late
        · exact ownOperation own move early
        · exact ownSecond (fun tag returned => own tag (List.mem_cons_of_mem _ returned)) move late
      · rw [Session.run_append]
        exact plays

private theorem ofConfig_eq_map {config : VmConfig} {pool : Pool Machine} (built : Pool.ofConfig config = .ok pool) :
    ∃ labelled : Pool (Instance Machine),
      Pool.ofFactory config.poolCapacity (Instance.made fun _ => Machine.idle config.instructionGas) = .ok labelled ∧
        labelled.map (·.state) = pool := by
  have factory := Pool.map_ofFactory (fun item : Instance Machine => item.state) config.poolCapacity
    (Instance.made fun _ => Machine.idle config.instructionGas)
  unfold Pool.ofConfig at built
  split at built
  · exact absurd built (by simp)
  · change (Pool.ofFactory config.poolCapacity fun serial =>
      (Instance.made (fun _ => Machine.idle config.instructionGas) serial).state).mapError PoolConfigError.pool =
        .ok pool at built
    rw [factory] at built
    cases made : Pool.ofFactory config.poolCapacity (Instance.made fun _ => Machine.idle config.instructionGas) with
    | error error => simp [made, Except.map, Except.mapError] at built
    | ok labelled =>
      refine ⟨labelled, rfl, ?_⟩
      simpa [made, Except.map, Except.mapError] using built

/-- Whatever is done at the desk of a configured pool, each desk looks like a session whose pool was built with as many
instances as were asked for. -/
private theorem runs_are_sessions {config : VmConfig} {pool : Pool Machine} (built : Pool.ofConfig config = .ok pool)
    {operations : List Operation} {entry : Answer × Desk} (mem : entry ∈ (ofPool pool).performAll operations) :
    ∃ labelled moves,
      Pool.ofFactory config.poolCapacity (Instance.made fun _ => Machine.idle config.instructionGas) = .ok labelled ∧
      ((∀ tag, .releaseForeign tag ∉ operations) → ∀ move ∈ moves, move.isOwn = true) ∧
      entry.2.Plays ((Session.opened labelled fun _ => Machine.idle config.instructionGas).run moves) := by
  obtain ⟨labelled, made, same⟩ := ofConfig_eq_map built
  have start : (ofPool pool).Plays (Session.opened labelled fun _ => Machine.idle config.instructionGas) :=
    ⟨⟨same, rfl, fun entry mem => absurd mem List.not_mem_nil, List.nodup_nil⟩, List.nodup_nil, List.Perm.refl _⟩
  obtain ⟨moves, own, plays⟩ := performAll_plays start (Session.Sound.opened made) mem
  exact ⟨labelled, moves, made, own, plays⟩

/-- At every desk, idle machines and those outstanding make up the capacity, and nobody waits for an idle one. -/
theorem accounts {config : VmConfig} {pool : Pool Machine} (built : Pool.ofConfig config = .ok pool)
    {operations : List Operation} {entry : Answer × Desk} (mem : entry ∈ (ofPool pool).performAll operations) :
    entry.2.pool.idleCount + entry.2.pool.outstanding = config.poolCapacity ∧
      (entry.2.pool.idle ≠ [] → entry.2.pool.waitingCount = 0) := by
  obtain ⟨labelled, moves, made, -, plays⟩ := runs_are_sessions built mem
  have sound := (Session.Sound.opened made).run moves
  rw [← plays.serves.pool]
  refine ⟨?_, fun someIdle => ?_⟩
  · rw [Pool.idleCount, Pool.map, List.length_map]
    exact sound.full
  · have nobody := sound.unwanted fun noneIdle => someIdle (by rw [Pool.map, noneIdle, List.map_nil])
    have waiters : ∀ p : Pool (Instance Machine), (p.map (·.state)).waiters = p.waiters := fun _ => rfl
    rw [Pool.waitingCount_eq, waiters, nobody, List.length_nil]

end Desk

end MeteredVm
