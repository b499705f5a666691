import MeteredVm.HostCall.Registry
import Mathlib.Tactic.Common

/-!
Filling a table of host calls. Entries under distinct indices can be registered in any order, and every order gives a
table that answers alike; the first entry under an index is kept whatever is attempted after it.
-/

set_option autoImplicit false
set_option relaxedAutoImplicit false

namespace MeteredVm.Registry

variable {η : Type}

/-- The table that an attempt to register leaves behind. -/
def attempt (registry : Registry η) (entry : UInt32 × η) : Registry η :=
  match registry.register entry.1 entry.2 with
  | .ok next => next
  | .error _ => registry

/-- The table that some attempts leave behind, each made whatever became of those before. -/
def attemptAll (registry : Registry η) (entries : List (UInt32 × η)) : Registry η := entries.foldl attempt registry

private theorem mem_indices_iff (registry : Registry η) (index : UInt32) :
    index ∈ registry.entries.map Prod.fst ↔ ∃ handler, registry.get? index = some handler := by
  simp [get?_eq_some_iff]

theorem register_of_taken {registry : Registry η} {index : UInt32} {first : η}
    (taken : registry.get? index = some first) (second : η) :
    registry.register index second = .error (.registeredTwice index) :=
  dif_pos ((registry.mem_indices_iff index).mpr ⟨first, taken⟩)

private theorem register_of_free {registry : Registry η} {index : UInt32} (free : registry.get? index = none)
    (handler : η) :
    ∃ next, registry.register index handler = .ok next ∧ next.entries = (index, handler) :: registry.entries ∧
      ∀ other, next.get? other = if other = index then some handler else registry.get? other := by
  have fresh : index ∉ registry.entries.map Prod.fst := by
    rw [mem_indices_iff]
    rintro ⟨other, taken⟩
    rw [free] at taken
    cases taken
  refine ⟨_, dif_neg fresh, rfl, fun other => ?_⟩
  rw [get?, List.lookup_cons]
  by_cases same : other = index
  · rw [if_pos same, same, beq_self_eq_true]
  · rw [if_neg same, beq_eq_false_iff_ne.mpr same]
    rfl

private theorem get?_attempt (registry : Registry η) (entry : UInt32 × η) (index : UInt32) :
    (registry.attempt entry).get? index =
      (registry.get? index).or (if index = entry.1 then some entry.2 else none) := by
  unfold attempt
  cases found : registry.get? entry.1 with
  | some first =>
    rw [register_of_taken found]
    by_cases same : index = entry.1
    · rw [same, found, Option.some_or]
    · rw [if_neg same, Option.or_none]
  | none =>
    obtain ⟨next, registered, -, finds⟩ := register_of_free found entry.2
    rw [registered]
    change next.get? index = _
    rw [finds]
    by_cases same : index = entry.1
    · rw [if_pos same, if_pos same, same, found, Option.none_or]
    · rw [if_neg same, if_neg same, Option.or_none]

theorem get?_attemptAll (registry : Registry η) (entries : List (UInt32 × η)) (index : UInt32) :
    (registry.attemptAll entries).get? index = (registry.get? index).or (entries.lookup index) := by
  induction entries generalizing registry with
  | nil => exact Option.or_none.symm
  | cons entry rest ih =>
    have step := ih (registry.attempt entry)
    rw [attemptAll] at step ⊢
    rw [List.foldl_cons, step, get?_attempt, Option.or_assoc, List.lookup_cons]
    by_cases same : index = entry.1
    · rw [if_pos same, same, beq_self_eq_true, Option.some_or]
    · rw [if_neg same, beq_eq_false_iff_ne.mpr same, Option.none_or]

private theorem registerAll_eq_ok {registry next : Registry η} {handlers : List (UInt32 × η)}
    (registered : registry.registerAll handlers = .ok next) :
    next.entries = handlers.reverse ++ registry.entries := by
  induction handlers generalizing registry with
  | nil =>
    obtain rfl := Except.ok.inj registered
    rfl
  | cons entry rest ih =>
    rw [registerAll] at registered
    cases found : registry.get? entry.1 with
    | some first =>
      rw [register_of_taken found] at registered
      cases registered
    | none =>
      obtain ⟨middle, first, entries, -⟩ := register_of_free found entry.2
      rw [first] at registered
      rw [ih registered, entries, List.reverse_cons, List.append_assoc]
      rfl

theorem exists_registerAll_iff (registry : Registry η) (handlers : List (UInt32 × η)) :
    (∃ next, registry.registerAll handlers = .ok next) ↔
      (handlers.map Prod.fst).Nodup ∧ ∀ entry ∈ handlers, registry.get? entry.1 = none := by
  induction handlers generalizing registry with
  | nil => simp [registerAll]
  | cons entry rest ih =>
    rw [registerAll]
    cases found : registry.get? entry.1 with
    | some first =>
      rw [register_of_taken found]
      simp [found]
    | none =>
      obtain ⟨middle, first, -, finds⟩ := register_of_free found entry.2
      rw [first]
      have free : ∀ index, middle.get? index = none ↔ index ≠ entry.1 ∧ registry.get? index = none := by
        intro index
        rw [finds]
        by_cases same : index = entry.1 <;> simp [same]
      simp only [ih, free, List.map_cons, List.nodup_cons, List.forall_mem_cons, found, true_and]
      constructor
      · rintro ⟨distinct, apart⟩
        refine ⟨⟨fun repeated => ?_, distinct⟩, fun other member => (apart other member).2⟩
        obtain ⟨other, member, same⟩ := List.mem_map.mp repeated
        exact (apart other member).1 same
      · rintro ⟨⟨fresh, distinct⟩, apart⟩
        refine ⟨distinct, fun other member => ⟨fun same => fresh ?_, apart other member⟩⟩
        exact List.mem_map.mpr ⟨other, member, same⟩

theorem get?_of_registerAll {handlers : List (UInt32 × η)} {registry : Registry η}
    (registered : empty.registerAll handlers = .ok registry) (index : UInt32) (handler : η) :
    registry.get? index = some handler ↔ (index, handler) ∈ handlers := by
  rw [get?_eq_some_iff, registerAll_eq_ok registered, List.mem_append, List.mem_reverse]
  simp [empty]

/-- Whether some entries can be registered does not depend on their order, and neither does what is found afterwards. -/
theorem registerAll_of_perm {handlers order : List (UInt32 × η)} {registry : Registry η} (perm : order.Perm handlers)
    (registered : empty.registerAll handlers = .ok registry) :
    ∃ other, empty.registerAll order = .ok other ∧ ∀ index, other.get? index = registry.get? index := by
  obtain ⟨distinct, -⟩ := (empty.exists_registerAll_iff handlers).mp ⟨registry, registered⟩
  have distinct' : (order.map Prod.fst).Nodup := (perm.map Prod.fst).nodup_iff.mpr distinct
  obtain ⟨other, filled⟩ := (empty.exists_registerAll_iff order).mpr ⟨distinct', fun _ _ => rfl⟩
  refine ⟨other, filled, fun index => Option.ext fun handler => ?_⟩
  rw [get?_of_registerAll filled, get?_of_registerAll registered, perm.mem_iff]

end MeteredVm.Registry
