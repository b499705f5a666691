import MeteredVm.Proofs.Memory.Cells

/-!
What a layout is by its steps. A page is there if one of the steps staged it, with the access it was staged for, and a
byte is what the last step that wrote data there put, or else part of the contents of its range. Which further steps
are accepted, and with which error the others are refused, follows from the steps before them.
-/

set_option autoImplicit false
set_option relaxedAutoImplicit false

namespace MeteredVm

open AddressSpace

namespace LayoutStep

/-- The cell that a step stages at an address; contents that are shorter than their range are padded with zeroes. -/
def staged? (a : Nat) : LayoutStep → Option Cell
  | .stage use start stop contents =>
    if start ≤ a ∧ a < stop then some ⟨use.access, contents.getD (a - start) 0⟩ else none
  | .setData _ _ => none

def written? (a : Nat) : LayoutStep → Option UInt8
  | .stage _ _ _ _ => none
  | .setData address data => if address ≤ a then data[a - address]? else none

end LayoutStep

namespace Layout

def stagedCell? (steps : List LayoutStep) (a : Nat) : Option Cell := steps.findSome? (·.staged? a)

/-- The byte of data that was the last to be written at an address. -/
def lastByte? (steps : List LayoutStep) (a : Nat) : Option UInt8 := steps.reverse.findSome? (·.written? a)

/-- The cell at an address by some steps: as it was staged, but with the byte that was written last. -/
def described? (steps : List LayoutStep) (a : Nat) : Option Cell :=
  (stagedCell? steps a).map fun cell => { cell with byte := (lastByte? steps a).getD cell.byte }

/-- One of the steps stages a range that holds the address. -/
def IsStaged (steps : List LayoutStep) (a : Nat) : Prop :=
  ∃ use start stop contents, .stage use start stop contents ∈ steps ∧ start ≤ a ∧ a < stop

/-- What makes a range fit to be staged after some steps. -/
structure Stageable (steps : List LayoutStep) (start stop : Nat) (contents : Array UInt8) : Prop where
  range : start < stop ∧ stop ≤ 4294967296
  aligned : 4096 ∣ start ∧ 4096 ∣ stop
  unreserved : 65536 ≤ start
  fits : contents.size ≤ stop - start
  free : ∀ page, start ≤ page * 4096 → page * 4096 < stop → ¬IsStaged steps (page * 4096)

/-- The first thing that is wrong with staging a range after some steps, in the order in which it is looked for. -/
inductive StagingFault (steps : List LayoutStep) (start stop : Nat) (contents : Array UInt8) : LayoutError → Prop where
  | range (wrong : ¬(start < stop ∧ stop ≤ 4294967296)) :
      StagingFault steps start stop contents (.invalidRange start stop)
  | aligned (range : start < stop ∧ stop ≤ 4294967296) (wrong : ¬(4096 ∣ start ∧ 4096 ∣ stop)) :
      StagingFault steps start stop contents (.notPageAligned start stop)
  | unreserved (range : start < stop ∧ stop ≤ 4294967296) (aligned : 4096 ∣ start ∧ 4096 ∣ stop)
      (wrong : ¬65536 ≤ start) : StagingFault steps start stop contents (.reservedRegion start stop)
  | fits (range : start < stop ∧ stop ≤ 4294967296) (aligned : 4096 ∣ start ∧ 4096 ∣ stop)
      (unreserved : 65536 ≤ start) (wrong : ¬contents.size ≤ stop - start) :
      StagingFault steps start stop contents (.contentsTooLong contents.size (stop - start))
  | free (range : start < stop ∧ stop ≤ 4294967296) (aligned : 4096 ∣ start ∧ 4096 ∣ stop)
      (unreserved : 65536 ≤ start) (fits : contents.size ≤ stop - start) (page : Nat)
      (inside : start ≤ page * 4096 ∧ page * 4096 < stop) (clash : IsStaged steps (page * 4096))
      (lowest : ∀ earlier, start ≤ earlier * 4096 → earlier < page → ¬IsStaged steps (earlier * 4096)) :
      StagingFault steps start stop contents (.pageAlreadyConfigured page)

/-- What is wrong with writing data after some steps. -/
inductive DataFault (steps : List LayoutStep) (address : Nat) (data : List UInt8) : LayoutError → Prop where
  | passes (nonempty : data ≠ []) (beyond : 4294967296 < address + data.length) :
      DataFault steps address data (.unconfiguredData address)
  | unstaged (within : address + data.length ≤ 4294967296) (a : Nat)
      (inside : address ≤ a ∧ a < address + data.length) (unstaged : ¬IsStaged steps a)
      (first : ∀ b, address ≤ b → b < a → IsStaged steps b) :
      DataFault steps address data (.unconfiguredData a)

private theorem isStaged_iff (steps : List LayoutStep) (a : Nat) :
    IsStaged steps a ↔ ∃ step ∈ steps, (step.staged? a).isSome := by
  constructor
  · rintro ⟨use, start, stop, contents, member, inside⟩
    refine ⟨_, member, ?_⟩
    rw [LayoutStep.staged?, if_pos inside]
    rfl
  · rintro ⟨step, member, staged⟩
    cases step with
    | stage use start stop contents =>
      by_cases inside : start ≤ a ∧ a < stop
      · exact ⟨use, start, stop, contents, member, inside⟩
      · rw [LayoutStep.staged?, if_neg inside] at staged
        cases staged
    | setData address data => cases staged

theorem isSome_stagedCell?_iff (steps : List LayoutStep) (a : Nat) :
    (stagedCell? steps a).isSome ↔ IsStaged steps a := by
  rw [stagedCell?, List.findSome?_isSome_iff, isStaged_iff]

private theorem isSome_described?_iff (steps : List LayoutStep) (a : Nat) :
    (described? steps a).isSome ↔ IsStaged steps a := by
  rw [described?, Option.isSome_map, isSome_stagedCell?_iff]

private theorem stagedCell?_append (steps : List LayoutStep) (step : LayoutStep) (a : Nat) :
    stagedCell? (steps ++ [step]) a = (stagedCell? steps a).or (step.staged? a) := by
  rw [stagedCell?, List.findSome?_append, List.findSome?_singleton]
  rfl

private theorem lastByte?_append (steps : List LayoutStep) (step : LayoutStep) (a : Nat) :
    lastByte? (steps ++ [step]) a = (step.written? a).or (lastByte? steps a) := by
  rw [lastByte?, List.reverse_append, List.findSome?_append, List.reverse_singleton, List.findSome?_singleton]
  rfl

private theorem described?_append_setData (steps : List LayoutStep) (address a : Nat) (data : Array UInt8) :
    described? (steps ++ [.setData address data]) a =
      (described? steps a).map (Cell.rewritten address data.toList a) := by
  unfold described?
  rw [stagedCell?_append, lastByte?_append, LayoutStep.staged?, LayoutStep.written?, Option.or_none, Option.map_map]
  refine congrArg (fun f => (stagedCell? steps a).map f) (funext fun cell => ?_)
  rw [Function.comp_apply, Cell.rewritten]
  split
  · rw [List.getD_eq_getElem?_getD, Array.getElem?_toList]
    cases data[a - address]? <;> rfl
  · rfl

private theorem described?_append_stage (steps : List LayoutStep) (use : Use) (start stop a : Nat)
    (contents : Array UInt8) (fresh : start ≤ a ∧ a < stop → stagedCell? steps a = none ∧ lastByte? steps a = none) :
    described? (steps ++ [.stage use start stop contents]) a =
      if start ≤ a ∧ a < stop then some ⟨use.access, contents.getD (a - start) 0⟩ else described? steps a := by
  unfold described?
  rw [stagedCell?_append, lastByte?_append, LayoutStep.staged?, LayoutStep.written?, Option.none_or]
  by_cases inside : start ≤ a ∧ a < stop
  · obtain ⟨unstaged, unwritten⟩ := fresh inside
    rw [if_pos inside, if_pos inside, unstaged, unwritten]
    rfl
  · rw [if_neg inside, if_neg inside, Option.or_none]

/-- The layout is what the steps say it is. -/
structure Describes (steps : List LayoutStep) (layout : Layout) : Prop where
  cells : ∀ a, layout.pages.cell? a = described? steps a
  proper : layout.pages.Proper
  /-- Data is only written where something is staged. -/
  backed : ∀ a, (lastByte? steps a).isSome → IsStaged steps a

namespace Describes

variable {steps : List LayoutStep} {layout : Layout}

theorem empty : Describes [] .empty where
  cells a := by
    rw [PageTable.cell?, Layout.empty, Std.ExtTreeMap.getElem?_empty]
    rfl
  proper := .empty
  backed a impossible := by cases impossible

variable (described : Describes steps layout)

include described

theorem pageOf_mem_iff (a : Nat) : pageOf a ∈ layout.pages ↔ IsStaged steps a := by
  rw [← isSome_described?_iff, ← described.cells, PageTable.isSome_cell?_iff]

theorem mem_iff (n : Nat) : n ∈ layout.pages ↔ IsStaged steps (n * pageSize) := by
  rw [← described.pageOf_mem_iff, PageTable.pageOf_mul]

private theorem lt_size {a : Nat} (staged : IsStaged steps a) : a < size := by
  rw [← described.pageOf_mem_iff, Std.ExtTreeMap.mem_iff_isSome_getElem?, Option.isSome_iff_exists] at staged
  obtain ⟨page, backed⟩ := staged
  have below := (described.proper _ _ backed).1.2
  unfold pageOf pageSize at below
  omega

section

variable {start stop : Nat} (aligned : start % pageSize = 0 ∧ stop % pageSize = 0)

include aligned

omit described in
private theorem pages_inside (page : Nat) :
    pageOf start ≤ page ∧ page < pageOf start + (pageOf stop - pageOf start) ↔
      start ≤ page * 4096 ∧ page * 4096 < stop := by
  unfold pageOf pageSize at *
  omega

private theorem firstStaged?_eq_none_iff_free :
    layout.firstStaged? (pageOf start) (pageOf stop - pageOf start) = none ↔
      ∀ page, start ≤ page * 4096 → page * 4096 < stop → ¬IsStaged steps (page * 4096) := by
  have unbacked : ∀ page : Nat, layout.pages[page]? = none ↔ ¬IsStaged steps (page * 4096) := by
    intro page
    rw [← pageSize, ← described.mem_iff, Std.ExtTreeMap.mem_iff_isSome_getElem?, Option.not_isSome_iff_eq_none]
  rw [firstStaged?_eq_none_iff]
  constructor
  · intro all page low high
    obtain ⟨from_, until_⟩ := (pages_inside aligned page).mpr ⟨low, high⟩
    exact (unbacked page).mp (all page from_ until_)
  · intro free page from_ until_
    obtain ⟨low, high⟩ := (pages_inside aligned page).mp ⟨from_, until_⟩
    exact (unbacked page).mpr (free page low high)

private theorem clash_of_firstStaged? {page : Nat}
    (found : layout.firstStaged? (pageOf start) (pageOf stop - pageOf start) = some page) :
    (start ≤ page * 4096 ∧ page * 4096 < stop) ∧ IsStaged steps (page * 4096) ∧
      ∀ earlier, start ≤ earlier * 4096 → earlier < page → ¬IsStaged steps (earlier * 4096) := by
  rw [firstStaged?_eq_find?] at found
  obtain ⟨clash, member, before⟩ := List.find?_range'_eq_some.mp found
  have inside := (pages_inside aligned page).mp (List.mem_range'_1.mp member)
  refine ⟨inside, (described.mem_iff page).mp clash, fun earlier low less staged => ?_⟩
  have unbacked := before earlier ((pages_inside aligned earlier).mpr ⟨low, by omega⟩).1 less
  rw [Bool.not_eq_true', ← Bool.not_eq_true] at unbacked
  exact unbacked ((described.mem_iff earlier).mpr staged)

end

section

variable {address count : Nat}

private theorem staged_of_firstUnstaged?
    (found : layout.firstUnstaged? (pageOf address) (pageOf (address + count - 1) + 1 - pageOf address) = none)
    (a : Nat) (low : address ≤ a) (high : a < address + count) : IsStaged steps a := by
  rw [firstUnstaged?_eq_find?] at found
  have backed := List.find?_range'_eq_none.mp found (pageOf a) (by unfold pageOf pageSize; omega)
    (by unfold pageOf pageSize; omega)
  rw [Bool.not_not] at backed
  exact (described.pageOf_mem_iff a).mp backed

private theorem gap_of_firstUnstaged? (pos : 0 < count) {page : Nat}
    (found :
      layout.firstUnstaged? (pageOf address) (pageOf (address + count - 1) + 1 - pageOf address) = some page) :
    (address ≤ max (page * pageSize) address ∧ max (page * pageSize) address < address + count) ∧
      ¬IsStaged steps (max (page * pageSize) address) ∧
      ∀ b, address ≤ b → b < max (page * pageSize) address → IsStaged steps b := by
  rw [firstUnstaged?_eq_find?] at found
  obtain ⟨unbacked, member, before⟩ := List.find?_range'_eq_some.mp found
  have span := List.mem_range'_1.mp member
  have there : pageOf (max (page * pageSize) address) = page ∧ max (page * pageSize) address < address + count := by
    unfold pageOf pageSize at *
    omega
  refine ⟨⟨Nat.le_max_right _ _, there.2⟩, ?_, fun b low less => ?_⟩
  · rw [← described.pageOf_mem_iff, there.1]
    rw [Bool.not_eq_true', ← Bool.not_eq_true] at unbacked
    exact unbacked
  · have backed := before (pageOf b) (by unfold pageOf pageSize; omega) (by unfold pageOf pageSize at *; omega)
    rw [Bool.not_not] at backed
    exact (described.pageOf_mem_iff b).mp backed

end

end Describes

private theorem StagingFault.unique {steps : List LayoutStep} {start stop : Nat} {contents : Array UInt8}
    {error error' : LayoutError} (one : StagingFault steps start stop contents error)
    (two : StagingFault steps start stop contents error') : error = error' := by
  cases one <;> cases two <;> try contradiction
  case range.range => rfl
  case aligned.aligned => rfl
  case unreserved.unreserved => rfl
  case fits.fits => rfl
  case free.free page inside clash lowest _ _ _ _ page' inside' clash' lowest' =>
    rcases Nat.lt_trichotomy page page' with before | same | behind
    · exact absurd clash (lowest' page inside.1 before)
    · rw [same]
    · exact absurd clash' (lowest page' inside'.1 behind)

theorem Stageable.faultless {steps : List LayoutStep} {start stop : Nat} {contents : Array UInt8}
    (stageable : Stageable steps start stop contents) (error : LayoutError) :
    ¬StagingFault steps start stop contents error := by
  intro fault
  obtain ⟨range, aligned, unreserved, fits, free⟩ := stageable
  cases fault <;> try contradiction
  case free page inside clash lowest => exact free page inside.1 inside.2 clash

section

variable {steps : List LayoutStep} {layout : Layout} (described : Describes steps layout)

include described

/-- Staging a range either fills it and changes nothing else, or reports the first thing that is wrong with it. -/
theorem stage_verdict (use : Use) (start stop : Nat) (contents : Array UInt8) :
    (Stageable steps start stop contents ∧ ∃ after, layout.stage use start stop contents = .ok after ∧
      ∀ a, after.pages.cell? a =
        if start ≤ a ∧ a < stop then some ⟨use.access, contents.getD (a - start) 0⟩ else layout.pages.cell? a) ∨
    ∃ error, layout.stage use start stop contents = .error error ∧
      StagingFault steps start stop contents error := by
  unfold stage
  split_ifs with badRange misaligned reserved long
  · exact Or.inr ⟨_, rfl, .range (by unfold size at badRange; omega)⟩
  all_goals
    have range : start < stop ∧ stop ≤ 4294967296 := by
      unfold size at badRange
      omega
  · refine Or.inr ⟨_, rfl, .aligned range ?_⟩
    simpa [isAligned, pageSize, Nat.dvd_iff_mod_eq_zero, Decidable.or_iff_not_not_and_not] using misaligned
  all_goals
    have aligned : start % pageSize = 0 ∧ stop % pageSize = 0 := by
      simpa only [isAligned, beq_iff_eq, not_or, Decidable.not_not] using misaligned
    have divides : 4096 ∣ start ∧ 4096 ∣ stop :=
      ⟨Nat.dvd_of_mod_eq_zero aligned.1, Nat.dvd_of_mod_eq_zero aligned.2⟩
  · exact Or.inr ⟨_, rfl, .unreserved range divides (Nat.not_le_of_lt reserved)⟩
  · exact Or.inr ⟨_, rfl, .fits range divides (Nat.le_of_not_lt reserved) (Nat.not_le_of_lt long)⟩
  · dsimp only
    cases found : layout.firstStaged? (pageOf start) (pageOf stop - pageOf start) with
    | some page =>
      obtain ⟨inside, clash, lowest⟩ := described.clash_of_firstStaged? aligned found
      exact Or.inr ⟨_, rfl, .free range divides (Nat.le_of_not_lt reserved) (Nat.le_of_not_lt long) page inside clash
        lowest⟩
    | none =>
      have free := (described.firstStaged?_eq_none_iff_free aligned).mp found
      exact Or.inl ⟨⟨range, divides, Nat.le_of_not_lt reserved, Nat.le_of_not_lt long, free⟩, _, rfl,
        cell?_insertPages layout.pages use contents aligned⟩

/-- Writing data either changes its bytes and nothing else, or names the first of them that nothing was staged for. -/
private theorem setData_verdict (address : Nat) (data : List UInt8) :
    ((data = [] ∨ ∀ a, address ≤ a → a < address + data.length → IsStaged steps a) ∧
      ∃ after, layout.setData address data = .ok after ∧
        ∀ a, after.pages.cell? a = (layout.pages.cell? a).map (Cell.rewritten address data a)) ∨
    ∃ error, layout.setData address data = .error error ∧ DataFault steps address data error := by
  by_cases nothing : data = []
  · subst nothing
    refine Or.inl ⟨Or.inl rfl, _, rfl, fun a => ?_⟩
    cases layout.pages.cell? a with
    | none => rfl
    | some cell => rw [Option.map_some, Cell.rewritten_nil]
  rcases Nat.lt_or_ge size (address + data.length) with passes | within
  · exact Or.inr ⟨_, setData_of_passes layout nothing passes, .passes nothing passes⟩
  · have pos : 0 < data.length := List.length_pos_iff.mpr nothing
    rw [setData_of_fits layout nothing within]
    cases found : layout.firstUnstaged? (pageOf address)
        (pageOf (address + data.length - 1) + 1 - pageOf address) with
    | some page =>
      obtain ⟨inside, gap, before⟩ := described.gap_of_firstUnstaged? pos found
      exact Or.inr ⟨_, rfl, .unstaged within _ inside gap before⟩
    | none =>
      exact Or.inl ⟨Or.inr (described.staged_of_firstUnstaged? found), _, rfl, fun a => cell?_writeData _ _ _ _⟩

theorem heapFault?_eq_none_iff (start stop : Nat) :
    layout.heapFault? start stop = none ↔ (4096 ∣ start ∧ 4096 ∣ stop) ∧ (start ≤ stop ∧ stop ≤ 4294967296) ∧
      (start = stop ∨ 65536 ≤ start ∧
        ∀ page, start ≤ page * 4096 → page * 4096 < stop → ¬IsStaged steps (page * 4096)) := by
  have aligned_iff : (4096 ∣ start ∧ 4096 ∣ stop) ↔ ¬(¬isAligned start ∨ ¬isAligned stop) := by
    simp only [isAligned, pageSize, beq_iff_eq, Nat.dvd_iff_mod_eq_zero, not_or, Decidable.not_not]
  unfold heapFault?
  split_ifs with misaligned outside nothing reserved
  · exact iff_of_false not_false fun right => aligned_iff.mp right.1 misaligned
  · refine iff_of_false not_false fun right => ?_
    obtain ⟨-, ordered, -⟩ := right
    unfold size at outside
    omega
  all_goals
    have ordered : start ≤ stop ∧ stop ≤ 4294967296 := by
      unfold size at outside
      omega
  · exact iff_of_true rfl ⟨aligned_iff.mpr misaligned, ordered, Or.inl nothing⟩
  · refine iff_of_false not_false fun right => ?_
    rcases right.2.2 with same | ⟨high, -⟩
    · exact nothing same
    · exact Nat.not_le_of_lt reserved high
  · have aligned : start % pageSize = 0 ∧ stop % pageSize = 0 := by
      simpa only [isAligned, beq_iff_eq, not_or, Decidable.not_not] using misaligned
    have free := described.firstStaged?_eq_none_iff_free aligned
    dsimp only
    cases found : layout.firstStaged? (pageOf start) (pageOf stop - pageOf start) with
    | none =>
      exact iff_of_true rfl
        ⟨aligned_iff.mpr misaligned, ordered, Or.inr ⟨Nat.le_of_not_lt reserved, free.mp found⟩⟩
    | some page =>
      refine iff_of_false (Option.some_ne_none _) fun right => ?_
      rcases right.2.2 with same | ⟨-, all⟩
      · exact nothing same
      · rw [free.mpr all] at found
        cases found

theorem Describes.apply {step : LayoutStep} {after : Layout} (applied : layout.apply step = .ok after) :
    Describes (steps ++ [step]) after := by
  have proper := proper_of_apply described.proper applied
  have kept : ∀ a, IsStaged steps a → IsStaged (steps ++ [step]) a := by
    rintro a ⟨use, start, stop, contents, member, inside⟩
    exact ⟨use, start, stop, contents, List.mem_append_left _ member, inside⟩
  cases step with
  | stage use start stop contents =>
    rcases stage_verdict described use start stop contents with ⟨stageable, after', staged, cells⟩ | ⟨error, refused, -⟩
    · obtain rfl : after' = after := Except.ok.inj (staged.symm.trans applied)
      refine ⟨fun a => ?_, proper, fun a given => kept a ?_⟩
      · rw [cells, described.cells, described?_append_stage]
        rintro ⟨low, high⟩
        have unstaged : ¬IsStaged steps a := by
          intro already
          rw [← described.pageOf_mem_iff, described.mem_iff] at already
          have aligned := stageable.aligned
          refine stageable.free (pageOf a) ?_ ?_ already
          all_goals
            unfold pageOf pageSize
            omega
        exact ⟨Option.not_isSome_iff_eq_none.mp ((isSome_stagedCell?_iff steps a).not.mpr unstaged),
          Option.not_isSome_iff_eq_none.mp fun written => unstaged (described.backed a written)⟩
      · rw [lastByte?_append, LayoutStep.written?, Option.none_or] at given
        exact described.backed a given
    · cases refused.symm.trans applied
  | setData address data =>
    rcases setData_verdict described address data.toList with ⟨accepted, after', written, cells⟩ | ⟨error, refused, -⟩
    · obtain rfl : after' = after := Except.ok.inj (written.symm.trans applied)
      refine ⟨fun a => ?_, proper, fun a given => kept a ?_⟩
      · rw [cells, described.cells, described?_append_setData]
      · rw [lastByte?_append, LayoutStep.written?] at given
        by_cases covered : address ≤ a ∧ a < address + data.toList.length
        · rcases accepted with nothing | staged
          · rw [nothing, List.length_nil] at covered
            omega
          · exact staged a covered.1 covered.2
        · have missed : (if address ≤ a then data[a - address]? else none) = none := by
            rw [Array.length_toList] at covered
            split
            · rw [Array.getElem?_eq_none_iff]
              omega
            · rfl
          rw [missed, Option.none_or] at given
          exact described.backed a given
    · cases refused.symm.trans applied

end

theorem Describes.applyAll {past steps : List LayoutStep} {layout after : Layout} (described : Describes past layout)
    (applied : layout.applyAll steps = .ok after) : Describes (past ++ steps) after := by
  induction steps generalizing past layout with
  | nil =>
    obtain rfl := Except.ok.inj applied
    rwa [List.append_nil]
  | cons step rest ih =>
    rw [Layout.applyAll] at applied
    split at applied
    · cases applied
    · rename_i next first
      have further := ih (described.apply first) applied
      rwa [List.append_assoc, List.singleton_append] at further

private theorem DataFault.unique {steps : List LayoutStep} {address : Nat} {data : List UInt8}
    {error error' : LayoutError}
    (one : DataFault steps address data error) (two : DataFault steps address data error') : error = error' := by
  cases one with
  | passes nonempty beyond =>
    cases two with
    | passes => rfl
    | unstaged within => omega
  | unstaged within a inside unstaged first =>
    cases two with
    | passes nonempty beyond => omega
    | unstaged within' a' inside' unstaged' first' =>
      rcases Nat.lt_trichotomy a a' with before | same | behind
      · exact absurd (first' a inside.1 before) unstaged
      · rw [same]
      · exact absurd (first a' inside'.1 behind) unstaged'

private theorem Describes.not_dataFault {steps : List LayoutStep} {layout : Layout} (described : Describes steps layout)
    {address : Nat} {data : List UInt8}
    (accepted : data = [] ∨ ∀ a, address ≤ a → a < address + data.length → IsStaged steps a) (error : LayoutError) :
    ¬DataFault steps address data error := by
  intro fault
  cases fault with
  | passes nonempty beyond =>
    have last := (accepted.resolve_left nonempty) (address + data.length - 1)
    have pos : 0 < data.length := List.length_pos_iff.mpr nonempty
    have below := described.lt_size (last (by omega) (by omega))
    unfold size at below
    omega
  | unstaged within a inside unstaged first =>
    rcases accepted with rfl | staged
    · rw [List.length_nil] at inside
      omega
    · exact unstaged (staged a inside.1 inside.2)

/-- An attempt that succeeds or has a fault is characterised by both, where there is one fault at most. -/
private theorem outcome_iff {ε α : Type} {outcome : Except ε α} {Good : Prop} {left : α → Prop} {Fault : ε → Prop}
    (verdict : (Good ∧ ∃ after, outcome = .ok after ∧ left after) ∨ ∃ error, outcome = .error error ∧ Fault error)
    (faultless : Good → ∀ error, ¬Fault error)
    (unique : ∀ error error', Fault error → Fault error' → error = error') :
    ((∃ after, outcome = .ok after) ↔ Good) ∧ ∀ error, outcome = .error error ↔ Fault error := by
  rcases verdict with ⟨good, after, rfl, -⟩ | ⟨error, rfl, fault⟩
  · exact ⟨iff_of_true ⟨after, rfl⟩ good, fun error => iff_of_false nofun (faultless good error)⟩
  · refine ⟨iff_of_false nofun fun good => faultless good error fault, fun error' => ?_⟩
    rw [Except.error.injEq]
    constructor
    · rintro rfl
      exact fault
    · exact unique error error' fault

private theorem Describes.pageAccess {steps : List LayoutStep} {layout : Layout} (described : Describes steps layout)
    {memory : Memory} (same : memory.pages = layout.pages) (page : Nat) :
    memory.pageAccess page = ((described? steps (page * pageSize)).map Cell.access).getD .none := by
  rw [Memory.pageAccess_eq, same, layout.pages.access_eq, described.cells]
  split
  · rename_i reserved
    have unstaged : described? steps (page * pageSize) = none := by
      rw [← described.cells, PageTable.cell?, PageTable.pageOf_mul, Option.map_eq_none_iff,
        Option.eq_none_iff_forall_ne_some]
      intro backed found
      exact Nat.not_le_of_lt reserved (described.proper _ _ found).1.1
    rw [unstaged]
    rfl
  · rfl

/-- What a sequence of steps leads to, when each of them succeeds. A range is staged next if it is in order and none of
its pages was staged by the steps, and otherwise the first of its faults is reported; data is written next if all of its
bytes were staged, and otherwise the first that was not is named; a heap is set up if it is in order and free of staged
pages. The memory that results has the bounds of that heap, the pages that were staged with the access they were staged
for, and at each address the byte of the data that was written there last, or else of the contents of the range or the
zeroes behind them. -/
theorem layout_is_what_its_steps_say {steps : List LayoutStep} {layout : Layout}
    (applied : Layout.empty.applyAll steps = .ok layout) :
    (∀ use start stop contents, (∃ after, layout.stage use start stop contents = .ok after) ↔
      Stageable steps start stop contents) ∧
    (∀ use start stop contents error, layout.stage use start stop contents = .error error ↔
      StagingFault steps start stop contents error) ∧
    (∀ address data, (∃ after, layout.setData address data = .ok after) ↔
      data = [] ∨ ∀ a, address ≤ a → a < address + data.length → IsStaged steps a) ∧
    (∀ address data error, layout.setData address data = .error error ↔ DataFault steps address data error) ∧
    (∀ heapStart heapEnd, (∃ memory, layout.finish heapStart heapEnd = .ok memory) ↔
      (4096 ∣ heapStart ∧ 4096 ∣ heapEnd) ∧ (heapStart ≤ heapEnd ∧ heapEnd ≤ 4294967296) ∧
        (heapStart = heapEnd ∨ 65536 ≤ heapStart ∧
          ∀ page, heapStart ≤ page * 4096 → page * 4096 < heapEnd → ¬IsStaged steps (page * 4096))) ∧
    ∀ heapStart heapEnd memory, layout.finish heapStart heapEnd = .ok memory →
      (memory.top = heapStart ∧ memory.heapEnd = heapEnd) ∧
      (∀ page, page ∈ memory.pages ↔ IsStaged steps (page * 4096)) ∧
      (∀ page, memory.pageAccess page = ((described? steps (page * 4096)).map Cell.access).getD .none) ∧
      ∀ a, memory.pages.cell? a = described? steps a := by
  have described : Describes steps layout := Describes.empty.applyAll applied
  have stages := fun use start stop contents => outcome_iff (stage_verdict described use start stop contents)
    Stageable.faultless fun _ _ => StagingFault.unique
  have writes := fun address data => outcome_iff (setData_verdict described address data)
    described.not_dataFault fun _ _ => DataFault.unique
  refine ⟨fun use start stop contents => (stages use start stop contents).1,
    fun use start stop contents => (stages use start stop contents).2, fun address data => (writes address data).1,
    fun address data => (writes address data).2, fun heapStart heapEnd => ?_, fun heapStart heapEnd memory closed => ?_⟩
  · simp only [← heapFault?_eq_none_iff described, finish_eq_ok_iff]
    exact ⟨fun ⟨_, faultless, _⟩ => faultless, fun faultless => ⟨_, faultless, rfl⟩⟩
  · obtain ⟨-, rfl⟩ := finish_eq_ok_iff.mp closed
    exact ⟨⟨rfl, rfl⟩, described.mem_iff, described.pageAccess rfl, described.cells⟩

/-- Two pages that can be read, with data across their border, below one that can be written. The data prevails over
the contents, a range that runs into the last page is refused, and so is data that runs out of it. -/
theorem layout_is_what_its_steps_say_of_overlaid_data :
    let steps : List LayoutStep :=
      [.stage .read 0x10000 0x12000 #[7, 8], .setData 0x10FFF #[1, 2], .stage .write 0x12000 0x13000 #[],
        .setData 0x10001 #[9]]
    ∃ layout, Layout.empty.applyAll steps = .ok layout ∧
      layout.stage .write 0x11000 0x14000 #[] = .error (.pageAlreadyConfigured 0x11) ∧
      layout.setData 0x12FFF [1, 2] = .error (.unconfiguredData 0x13000) ∧
      ∃ memory, layout.finish 0x13000 0x20000 = .ok memory ∧ memory.pageAccess 0x11 = .read ∧
        memory.pages.cell? 0x10000 = some ⟨.read, 7⟩ ∧ memory.pages.cell? 0x10001 = some ⟨.read, 9⟩ ∧
        memory.pages.cell? 0x11000 = some ⟨.read, 2⟩ ∧ memory.pages.cell? 0x13000 = none := by
  intro steps
  have succeeds : (Layout.empty.applyAll steps).isOk := by decide +kernel
  obtain ⟨layout, applied⟩ : ∃ layout, Layout.empty.applyAll steps = .ok layout := by
    cases outcome : Layout.empty.applyAll steps with
    | ok layout => exact ⟨layout, rfl⟩
    | error error =>
      rw [outcome] at succeeds
      cases succeeds
  obtain ⟨-, clashes, -, faults, heaps, closes⟩ := layout_is_what_its_steps_say applied
  have unstaged : ∀ page, 0x13 ≤ page → ¬IsStaged steps (page * 4096) := by
    rintro page above ⟨use, start, stop, contents, member, low, high⟩
    simp only [steps, List.mem_cons, List.not_mem_nil, or_false, reduceCtorEq, false_or,
      LayoutStep.stage.injEq] at member
    omega
  have clash : IsStaged steps (0x11 * 4096) := ⟨.read, 0x10000, 0x12000, #[7, 8], by simp [steps], by decide, by decide⟩
  have last : IsStaged steps 0x12FFF := ⟨.write, 0x12000, 0x13000, #[], by simp [steps], by decide, by decide⟩
  have free := (heaps 0x13000 0x20000).mpr ⟨by decide, by decide, Or.inr ⟨by decide, fun page low _ =>
    unstaged page (by omega)⟩⟩
  obtain ⟨memory, closed⟩ := free
  obtain ⟨-, -, access, cells⟩ := closes _ _ memory closed
  refine ⟨layout, applied, ?_, ?_, memory, closed, access 0x11, cells 0x10000, cells 0x10001, cells 0x11000,
    cells 0x13000⟩
  · rw [clashes]
    refine .free (by decide) (by decide) (by decide) (by decide) 0x11 (by decide) clash ?_
    intro earlier low less
    omega
  · rw [faults]
    refine .unstaged (by decide) 0x13000 (by decide) (unstaged 0x13 (by decide)) ?_
    intro b low less
    obtain rfl : b = 0x12FFF := by omega
    exact last

end Layout

end MeteredVm
