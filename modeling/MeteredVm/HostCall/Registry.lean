/-!
The table of host calls. A table has at most one entry for an index, and refuses a second one.
-/

set_option autoImplicit false
set_option relaxedAutoImplicit false

namespace MeteredVm

inductive RegistryError where
  | registeredTwice (index : UInt32)
deriving DecidableEq, Repr

def RegistryError.message : RegistryError → String
  | .registeredTwice index => "host call " ++ toString index.toNat ++ " registered twice"

/-- Entries under pairwise distinct indices. -/
structure Registry (η : Type) where
  entries : List (UInt32 × η)
  distinct : (entries.map Prod.fst).Nodup

namespace Registry

variable {η : Type}

def empty : Registry η := ⟨[], List.nodup_nil⟩

instance : Inhabited (Registry η) := ⟨empty⟩

def get? (registry : Registry η) (index : UInt32) : Option η := registry.entries.lookup index

def size (registry : Registry η) : Nat := registry.entries.length

/-- Adds an entry, unless its index is taken. -/
def register (registry : Registry η) (index : UInt32) (handler : η) : Except RegistryError (Registry η) :=
  if h : index ∈ registry.entries.map Prod.fst then .error (.registeredTwice index)
  else .ok ⟨(index, handler) :: registry.entries, List.nodup_cons.2 ⟨h, registry.distinct⟩⟩

def registerAll (registry : Registry η) : List (UInt32 × η) → Except RegistryError (Registry η)
  | [] => .ok registry
  | (index, handler) :: rest =>
    match registry.register index handler with
    | .error error => .error error
    | .ok next => next.registerAll rest

theorem get?_eq_some_iff (registry : Registry η) (index : UInt32) (handler : η) :
    registry.get? index = some handler ↔ (index, handler) ∈ registry.entries := by
  obtain ⟨entries, distinct⟩ := registry
  simp only [get?]
  induction entries with
  | nil => simp
  | cons entry rest ih =>
    obtain ⟨i, h⟩ := entry
    simp only [List.map_cons, List.nodup_cons] at distinct
    by_cases hi : index = i
    · subst hi
      have hnot : (index, handler) ∉ rest := fun hmem =>
        distinct.1 (List.mem_map.2 ⟨(index, handler), hmem, rfl⟩)
      simp [hnot, eq_comm]
    · have hne : (index == i) = false := by simpa using hi
      simp [List.lookup_cons, hne, ih distinct.2, hi]

end Registry

end MeteredVm
