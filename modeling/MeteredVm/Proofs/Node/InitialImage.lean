import MeteredVm.Node.Runner
import MeteredVm.Proofs.Batch.Sharing
import MeteredVm.Proofs.Memory.Staging

/-!
What the runs of the node start with. A runner refuses what is too long or asks for too much gas before it runs
anything. The main statement says what is refused, and that the image for everything else can be built and is right for
inputs of every length from none at all to the longest, whose last page is the one below the address that halts the
machine. That the image reaches the machines of a batch is an invariant of its turns.
-/

set_option autoImplicit false
set_option relaxedAutoImplicit false

namespace MeteredVm

open AddressSpace

namespace Layout

variable {steps : List LayoutStep} {layout : Layout}

private theorem exists_of_stageable (described : Describes steps layout) {start stop : Nat} {contents : Array UInt8}
    (stageable : Stageable steps start stop contents) (use : Use) :
    ∃ after, layout.apply (.stage use start stop contents) = .ok after ∧
      Describes (steps ++ [.stage use start stop contents]) after := by
  rcases stage_verdict described use start stop contents with ⟨-, after, staged, -⟩ | ⟨error, -, fault⟩
  · exact ⟨after, staged, described.apply staged⟩
  · exact absurd fault (stageable.faultless error)

/-- Seen as a flat map, a layout has the cells that its steps describe, and nothing accessible besides. -/
private theorem Describes.flat_eq (described : Describes steps layout) {memory : Memory}
    (same : memory.pages = layout.pages) (a : Nat) : memory.flat a = (described? steps a).getD ⟨.none, 0⟩ := by
  rw [← described.cells, ← same, PageTable.cell?, pageOf]
  unfold Memory.flat
  cases found : memory.pages[a / pageSize]? with
  | none => rfl
  | some page =>
    rw [same] at found
    have above : ¬ a < reservedBytes := by
      have low := (described.proper _ _ found).1.1
      unfold reservedPages reservedBytes pageSize at *
      omega
    simp only [if_neg above, Option.map_some, Option.getD_some]

end Layout

private theorem Memory.flat_grownBy {memory : Memory} (ready : memory.HeapReady) {length : UInt32}
    (room : memory.top + ceilToPage length.toNat ≤ memory.heapEnd) (a : Nat) :
    (memory.grownBy length).flat a =
      if memory.top ≤ a ∧ a < memory.top + ceilToPage length.toNat then ⟨.write, 0⟩ else memory.flat a := by
  have aligned := ready.topAligned
  have rounded := ceilToPage_mod length.toNat
  have inPage : memory.top ≤ pageOf a * pageSize ∧ pageOf a * pageSize < memory.top + ceilToPage length.toNat ↔
      memory.top ≤ a ∧ a < memory.top + ceilToPage length.toNat := by
    unfold pageOf pageSize at *
    omega
  have page := getElem?_grownBy ready room (pageOf a)
  simp only [inPage] at page
  unfold pageOf at page
  unfold flat
  rw [page]
  by_cases gained : memory.top ≤ a ∧ a < memory.top + ceilToPage length.toNat
  · have above : ¬ a < reservedBytes := by
      have unreserved := ready.unreserved (by omega)
      omega
    simp only [if_pos gained, if_neg above, get_zeroed]
    rfl
  · rw [if_neg gained, if_neg gained]

namespace Node

/-- The address lies in a page that holds a byte of the input. -/
def Covers (input : Array UInt8) (a : Nat) : Prop := ∃ i < input.size, pageOf a = pageOf (inputAddress + i)

section

variable {input : Array UInt8}

private theorem covers_iff (a : Nat) :
    Covers input a ↔ inputAddress ≤ a ∧ a < inputAddress + ceilToPage input.size := by
  unfold Covers inputAddress ceilToPage pageOf pageSize
  constructor
  · rintro ⟨i, inside, same⟩
    omega
  · rintro ⟨low, high⟩
    -- the page of the address starts with a byte of the input
    exact ⟨(a - 0xFEFF0000) / 4096 * 4096, by omega, by omega⟩

private theorem stagedCell?_image (a : Nat) :
    Layout.stagedCell? (imageSteps input) a =
      if stackStart ≤ a ∧ a < stackEnd then some ⟨.write, 0⟩
      else if inputAddress ≤ a ∧ a < inputAddress + ceilToPage input.size then
        some ⟨.read, input.getD (a - inputAddress) 0⟩
      else none := by
  have blank : ∀ i, (#[] : Array UInt8).getD i 0 = 0 := fun _ => rfl
  have stack : (LayoutStep.stage .write stackStart stackEnd #[]).staged? a =
      if stackStart ≤ a ∧ a < stackEnd then some ⟨.write, 0⟩ else none := by
    rw [LayoutStep.staged?, Use.access, blank]
  unfold imageSteps Layout.stagedCell?
  by_cases empty : input.isEmpty = true
  · -- the pages of no input are none
    have nowhere : ¬ (inputAddress ≤ a ∧ a < inputAddress + ceilToPage input.size) := by
      rw [Array.isEmpty_iff_size_eq_zero] at empty
      rw [empty, ceilToPage_of_aligned (Nat.zero_mod _)]
      omega
    rw [if_pos empty, if_neg nowhere, List.findSome?_singleton, stack]
  · rw [if_neg empty, List.findSome?_cons, List.findSome?_singleton, stack]
    by_cases inStack : stackStart ≤ a ∧ a < stackEnd
    · rw [if_pos inStack, if_pos inStack]
    · rw [if_neg inStack, if_neg inStack, LayoutStep.staged?, Use.access]

private theorem described?_image (a : Nat) :
    Layout.described? (imageSteps input) a = Layout.stagedCell? (imageSteps input) a := by
  have unwritten : Layout.lastByte? (imageSteps input) a = none := by
    unfold imageSteps
    split <;> rfl
  rw [Layout.described?, unwritten]
  exact Option.map_id_apply

private theorem isStaged_image_iff (a : Nat) :
    Layout.IsStaged (imageSteps input) a ↔ (stackStart ≤ a ∧ a < stackEnd) ∨ Covers input a := by
  rw [← Layout.isSome_stagedCell?_iff, stagedCell?_image, covers_iff]
  split
  · simp_all
  · split <;> simp_all

private theorem toNat_haltAddress : haltAddress.toNat = 0xFFFF0000 := rfl

private theorem inputEnd_le (short : input.size ≤ maxInputSize) :
    inputAddress + ceilToPage input.size ≤ haltAddress.toNat := by
  rw [maxInputSize, toNat_haltAddress, inputAddress] at short
  rw [toNat_haltAddress, inputAddress, ceilToPage, pageSize]
  omega

private theorem exists_layout (short : input.size ≤ maxInputSize) :
    ∃ layout, Layout.empty.applyAll (imageSteps input) = .ok layout ∧ Layout.Describes (imageSteps input) layout := by
  have stackStageable : Layout.Stageable [] stackStart stackEnd #[] := by
    refine ⟨by decide, by decide, by decide, by decide, ?_⟩
    rintro page - - ⟨use, start, stop, contents, member, -⟩
    cases member
  obtain ⟨withStack, first, described⟩ := Layout.exists_of_stageable .empty stackStageable .write
  unfold imageSteps
  split
  · exact ⟨withStack, by simp only [Layout.applyAll, first], described⟩
  · rename_i nonempty
    have inputStageable : Layout.Stageable [.stage .write stackStart stackEnd #[]] inputAddress
        (inputAddress + ceilToPage input.size) input := by
      have below := inputEnd_le short
      have pos : 0 < input.size := by
        rw [Array.isEmpty_iff_size_eq_zero] at nonempty
        omega
      obtain ⟨long, -⟩ := ceilToPage_bounds input.size
      have rounded := ceilToPage_mod input.size
      rw [toNat_haltAddress] at below
      unfold inputAddress pageSize at *
      refine ⟨by omega, by omega, by omega, by omega, ?_⟩
      rintro page low - ⟨use, start, stop, contents, member, -, high⟩
      obtain ⟨rfl, rfl, rfl, rfl⟩ := LayoutStep.stage.inj (List.mem_singleton.mp member)
      unfold stackEnd at high
      omega
    obtain ⟨layout, second, described⟩ := Layout.exists_of_stageable described inputStageable .read
    exact ⟨layout, by simp only [Layout.applyAll, first, second], described⟩

end

/-- A memory is the one that every run on an input starts with. -/
structure IsImage (input : Array UInt8) (memory : Memory) : Prop where
  stack : ∀ a, 0x10000 ≤ a → a < 0x20000 → memory.flat a = ⟨.write, 0⟩
  contents : ∀ a, Covers input a → memory.flat a = ⟨.read, input.getD (a - inputAddress) 0⟩
  nothingElse : ∀ a, ¬ (0x10000 ≤ a ∧ a < 0x20000) → ¬ Covers input a → memory.flat a = ⟨.none, 0⟩
  belowHalt : ∀ page ∈ memory.pages, (page + 1) * pageSize ≤ haltAddress.toNat
  ready : memory.HeapReady
  bounds : memory.top = 0x20000 ∧ memory.heapEnd = 0x120000
  grows : ∀ length : UInt32, length.toNat ≤ 0x100000 →
    ∃ after, memory.grow length = some (0x20000, after) ∧ ∀ a, after.flat a =
      if 0x20000 ≤ a ∧ a < 0x20000 + ceilToPage length.toNat then ⟨.write, 0⟩ else memory.flat a
  ceiling : ∀ length : UInt32, 0x100000 < length.toNat → memory.grow length = none

section

variable {input : Array UInt8}

private theorem exists_closed (short : input.size ≤ maxInputSize) :
    ∃ layout, Layout.Describes (imageSteps input) layout ∧
      layout.finish heapStart heapEnd = .ok ⟨layout.pages, heapStart, heapEnd⟩ ∧
      initialMemory input = .ok ⟨layout.pages, heapStart, heapEnd⟩ := by
  obtain ⟨layout, applied, described⟩ := exists_layout short
  have free : ∀ page, heapStart ≤ page * 4096 → page * 4096 < heapEnd →
      ¬ Layout.IsStaged (imageSteps input) (page * 4096) := by
    intro page low high staged
    rw [isStaged_image_iff, covers_iff] at staged
    unfold heapStart heapEnd stackStart stackEnd inputAddress at *
    omega
  have faultless : layout.heapFault? heapStart heapEnd = none :=
    (Layout.heapFault?_eq_none_iff described heapStart heapEnd).mpr ⟨by decide, by decide, .inr ⟨by decide, free⟩⟩
  have closed : layout.finish heapStart heapEnd = .ok ⟨layout.pages, heapStart, heapEnd⟩ :=
    Layout.finish_eq_ok_iff.mpr ⟨faultless, rfl⟩
  refine ⟨layout, described, closed, ?_⟩
  rw [initialMemory, Layout.build, applied]
  exact closed

private theorem exists_image (short : input.size ≤ maxInputSize) :
    ∃ memory, initialMemory input = .ok memory ∧ IsImage input memory := by
  obtain ⟨layout, described, closed, built⟩ := exists_closed short
  obtain ⟨ready, -, -⟩ := Layout.heapReady_of_finish closed
  have flat : ∀ a, (⟨layout.pages, heapStart, heapEnd⟩ : Memory).flat a =
      (Layout.stagedCell? (imageSteps input) a).getD ⟨.none, 0⟩ := by
    intro a
    rw [described.flat_eq rfl, described?_image]
  refine ⟨_, built, ?_⟩
  constructor
  case ready => exact ready
  case bounds => exact ⟨rfl, rfl⟩
  case stack =>
    intro a low high
    rw [flat, stagedCell?_image, if_pos ⟨low, high⟩]
    rfl
  case contents =>
    intro a covered
    have inside := (covers_iff a).mp covered
    have apart : ¬ (stackStart ≤ a ∧ a < stackEnd) := by
      unfold inputAddress at inside
      unfold stackStart stackEnd
      omega
    rw [flat, stagedCell?_image, if_neg apart, if_pos inside]
    rfl
  case nothingElse =>
    intro a outside uncovered
    have apart : ¬ (stackStart ≤ a ∧ a < stackEnd) := outside
    rw [flat, stagedCell?_image, if_neg apart, if_neg (mt (covers_iff a).mpr uncovered)]
    rfl
  case belowHalt =>
    intro page backed
    have staged := (described.mem_iff page).mp backed
    have below := inputEnd_le short
    have rounded := ceilToPage_mod input.size
    rw [isStaged_image_iff, covers_iff] at staged
    rw [toNat_haltAddress] at below ⊢
    unfold stackStart stackEnd inputAddress pageSize at *
    omega
  case grows =>
    intro length few
    have room : heapStart + ceilToPage length.toNat ≤ heapEnd := by
      unfold heapStart heapEnd ceilToPage pageSize
      omega
    exact ⟨_, (Memory.grow_eq_some_iff ready).mpr ⟨room, rfl, rfl⟩, Memory.flat_grownBy ready room⟩
  case ceiling =>
    intro length many
    have noRoom : ¬ heapStart + ceilToPage length.toNat ≤ heapEnd := by
      obtain ⟨more, -⟩ := ceilToPage_bounds length.toNat
      unfold heapStart heapEnd
      omega
    rw [Memory.grow_of_ready ready]
    exact if_neg noRoom

private theorem get_initialRegisters (length : Nat) :
    (initialRegisters length).get inputAddressRegister = (if length = 0 then 0 else UInt64.ofNat inputAddress) ∧
      (initialRegisters length).get inputLengthRegister = UInt64.ofNat length := by
  unfold initialRegisters
  by_cases empty : length = 0
  · rw [if_pos empty, if_pos empty, empty]
    exact ⟨rfl, rfl⟩
  · rw [if_neg empty, if_neg empty]
    exact ⟨rfl, rfl⟩

private theorem toNat_initialRegisters (short : input.size ≤ maxInputSize) :
    ((initialRegisters input.size).get inputAddressRegister).toNat = (if input.size = 0 then 0 else inputAddress) ∧
      ((initialRegisters input.size).get inputLengthRegister).toNat = input.size := by
  obtain ⟨start, length⟩ := get_initialRegisters input.size
  rw [start, length]
  constructor
  · split <;> rfl
  · exact UInt64.toNat_ofNat_of_lt' (Nat.lt_of_le_of_lt short (by decide))

private theorem IsImage.load_eq {memory : Memory} (image : IsImage input memory) (short : input.size ≤ maxInputSize) :
    memory.load ((initialRegisters input.size).get inputAddressRegister)
      ((initialRegisters input.size).get inputLengthRegister) = .ok input := by
  obtain ⟨start, length⟩ := toNat_initialRegisters short
  have covered : ∀ i < input.size, memory.flat (inputAddress + i) = ⟨.read, input.getD i 0⟩ := by
    intro i inside
    rw [image.contents _ ⟨i, inside, rfl⟩, Nat.add_sub_cancel_left]
  have faultless : memory.fault? .read ((initialRegisters input.size).get inputAddressRegister)
      ((initialRegisters input.size).get inputLengthRegister) = none := by
    rw [Memory.fault?_eq_none_iff, start, length]
    by_cases empty : input.size = 0
    · exact .inl empty
    · rw [if_neg empty]
      refine .inr ⟨?_, ?_⟩
      · have below := inputEnd_le short
        obtain ⟨long, -⟩ := ceilToPage_bounds input.size
        rw [toNat_haltAddress] at below
        unfold size
        omega
      · intro a low high
        obtain ⟨i, rfl⟩ := Nat.exists_eq_add_of_le low
        rw [covered i (by omega)]
        exact .inl rfl
  rw [Memory.load_flat faultless, start, length]
  refine congrArg Except.ok (Array.ext ?_ ?_)
  · rw [Cell.bytes, Array.size_ofFn]
  · intro i _ inside
    have nonempty : input.size ≠ 0 := by omega
    simp only [Cell.bytes, Array.getElem_ofFn, if_neg nonempty, covered i inside]
    exact (Array.getElem_eq_getD 0).symm

end

namespace Runner

/-- What a runner refuses: a program or an input that is too long, or more gas than a counter holds. -/
def Refuses (config : VmConfig) (program input : Array UInt8) (gas : Option Nat) : Prop :=
  config.maxCodeSize < program.size ∨ maxInputSize < input.size ∨ GasCounter.maxGas < gas.getD config.defaultGas

section

variable {config : VmConfig} {program input : Array UInt8} {gas : Option Nat}

private theorem job_of_refused (refused : Refuses config program input gas) :
    ∃ error, job config program input gas = .error error ∧ error ≠ .tooManyRuns ∧ error ≠ .endless := by
  unfold job VmConfig.checkCodeSize
  by_cases longCode : config.maxCodeSize < program.size
  · rw [if_pos longCode]
    exact ⟨_, rfl, nofun, nofun⟩
  · rw [if_neg longCode]
    by_cases longInput : maxInputSize < input.size
    · exact ⟨_, if_pos longInput, nofun, nofun⟩
    · have high := (refused.resolve_left longCode).resolve_left longInput
      exact ⟨_, (if_neg longInput).trans (if_pos high), nofun, nofun⟩

private theorem job_of_admitted (admitted : ¬ Refuses config program input gas) {memory : Memory}
    (built : initialMemory input = .ok memory) :
    job config program input gas =
      .ok ⟨program, UInt64.ofNat (gas.getD config.defaultGas), initialRegisters input.size, memory⟩ := by
  obtain ⟨shortCode, rest⟩ := not_or.mp admitted
  obtain ⟨shortInput, low⟩ := not_or.mp rest
  unfold job VmConfig.checkCodeSize
  rw [if_neg shortCode]
  simp only [if_neg shortInput, if_neg low, built]

end

section

variable {runner : Runner} {program input : Array UInt8} {gas : Option Nat} {runs : Nat}

private theorem runMany_of_error {error : RunError} (refused : job runner.config program input gas = .error error) :
    runner.runMany program input gas runs = (.error error, runner) := by
  rw [runMany, refused]

private theorem error_of_accepted {accepted : Job} (made : job runner.config program input gas = .ok accepted)
    {error : RunError} (failed : (runner.runMany program input gas runs).1 = .error error) :
    error = .tooManyRuns ∨ error = .endless := by
  unfold runMany at failed
  rw [made] at failed
  dsimp only at failed
  split at failed
  · exact .inl (Except.error.inj failed).symm
  · split at failed
    · exact .inr (Except.error.inj failed).symm
    · cases failed

end

/-- Every run of a batch that has a machine and has not run yet has it as a job prepares it. -/
def LoadedFor (job : Job) (batch : Batch String) : Prop :=
  ∀ (run : Nat) (machine : Machine), batch.phases[run]? = some (.loaded machine) → ∃ before, machine = job.load before

section

variable {dispatcher : Dispatcher String} {job : Job} {batch : Batch String}

private theorem LoadedFor.put (loaded : LoadedFor job batch) (pool : Pool Machine) {run : Nat} {old new : Phase String}
    (held : batch.phases[run]? = some old)
    (prepared : ∀ machine, new = .loaded machine → ∃ before, machine = job.load before) :
    LoadedFor job ({ batch with pool }.put run new) := by
  intro other machine found
  by_cases same : other = run
  · have now : ({ batch with pool } : Batch String).phases[run]? = some old := held
    rw [same, Batch.phase_put_self new now] at found
    exact prepared machine (Option.some.inj found)
  · rw [Batch.phase_put_of_ne new same] at found
    exact loaded other machine found

private theorem LoadedFor.turn (loaded : LoadedFor job batch) (run : Nat) :
    LoadedFor job (batch.turn dispatcher job run) := by
  have turns := batch.turn_turns dispatcher job run
  generalize batch.turn dispatcher job run = after at turns
  cases turns with
  | rests => exact loaded
  | waits => exact loaded
  | hangs => exact loaded
  | loads machine pool waiting =>
    refine loaded.put pool waiting fun prepared same => ⟨machine, ?_⟩
    exact (Phase.loaded.inj same).symm
  -- The phases behind `loaded` hold no machine that has yet to run.
  | runs machine execution held => exact loaded.put batch.pool held nofun
  | returns execution pool held => exact loaded.put pool held nofun

private theorem LoadedFor.turns (loaded : LoadedFor job batch) (order : List Nat) :
    LoadedFor job (batch.turns dispatcher job order) := by
  induction order generalizing batch with
  | nil => exact loaded
  | cons run rest ih => exact ih (loaded.turn run)

private theorem loadedFor_start (job : Job) (pool : Pool Machine) (runs : Nat) :
    LoadedFor job (Batch.start pool runs) := by
  intro run machine found
  cases Batch.phase_start found

end

/-- What runs start with, for every runner, program, input, choice of gas and number of runs. Unless there are more
results than any memory holds or a run does not end, a runner fails exactly for what it refuses, and then nothing has
happened to it. For each input that is not too long the image can be built. It has a stack of zeroes, the input in pages
that can only be read and that are filled up with zeroes, and nothing else that is accessible; no page is at or above
the address that halts the machine; and the heap can grow by whole pages up to its end and no further. The registers
name the input: what can be read there is the input, and both are zero if it is empty. If the runs are not refused, this
image, these registers and the gas that was chosen make up their job, and at any time, whatever turns they took, each
run that has a machine and has not run on it yet has one that was reset to them. -/
theorem runs_start_from_their_image (runner : Runner) (program input : Array UInt8) (gas : Option Nat) (runs : Nat) :
    let refused := Refuses runner.config program input gas
    let chosen := gas.getD runner.config.defaultGas
    let registers := initialRegisters input.size
    ((∃ error, (runner.runMany program input gas runs).1 = .error error ∧
        error ≠ .tooManyRuns ∧ error ≠ .endless) ↔ refused) ∧
    (refused → (runner.runMany program input gas runs).2 = runner) ∧
    (input.size ≤ maxInputSize → ∃ memory, initialMemory input = .ok memory ∧ IsImage input memory ∧
      memory.load (registers.get inputAddressRegister) (registers.get inputLengthRegister) = .ok input ∧
      (registers.get inputAddressRegister).toNat = (if input.size = 0 then 0 else inputAddress) ∧
      (registers.get inputLengthRegister).toNat = input.size ∧
      (¬ refused → (UInt64.ofNat chosen).toNat = chosen ∧
        job runner.config program input gas = .ok ⟨program, UInt64.ofNat chosen, registers, memory⟩ ∧
        ∀ (order : List Nat) (run : Nat) (machine : Machine),
          ((Batch.start runner.pool runs).turns runner.dispatcher ⟨program, UInt64.ofNat chosen, registers, memory⟩
            order).phases[run]? = some (.loaded machine) →
          ∃ before : Machine,
            machine = before.reset program 0 (UInt64.ofNat chosen) (some registers) (some memory))) := by
  intro refused chosen registers
  refine ⟨⟨?_, ?_⟩, ?_, ?_⟩
  · rintro ⟨error, failed, notMany, notEndless⟩
    by_contra admitted
    have shortInput : input.size ≤ maxInputSize := Nat.le_of_not_lt fun long => admitted (.inr (.inl long))
    obtain ⟨memory, built, -⟩ := exists_image shortInput
    rcases error_of_accepted (job_of_admitted admitted built) failed with many | endless
    · exact notMany many
    · exact notEndless endless
  · intro refuses
    obtain ⟨error, failed, other⟩ := job_of_refused refuses
    exact ⟨error, by rw [runMany_of_error failed], other⟩
  · intro refuses
    obtain ⟨error, failed, -⟩ := job_of_refused refuses
    rw [runMany_of_error failed]
  · intro short
    obtain ⟨memory, built, image⟩ := exists_image short
    obtain ⟨start, length⟩ := toNat_initialRegisters short
    refine ⟨memory, built, image, image.load_eq short, start, length, ?_⟩
    intro admitted
    have low : chosen ≤ GasCounter.maxGas := Nat.le_of_not_lt fun high => admitted (.inr (.inr high))
    refine ⟨UInt64.toNat_ofNat_of_lt' (Nat.lt_of_le_of_lt low (by decide)), job_of_admitted admitted built, ?_⟩
    intro order run machine found
    exact (loadedFor_start _ runner.pool runs).turns order run machine found

/-- An input of two bytes takes a page, which is filled up with zeroes, and the first turn loads the machine of the pool
with it; with more gas than a counter holds it is refused. -/
theorem runs_start_from_their_image_for_two_bytes :
    let runner : Runner := ⟨{ VmConfig.standard with poolCapacity := 1 }, ⟨1, [Machine.idle 1], 0, [], []⟩⟩
    ((runner.runMany #[0] #[7, 8] (some 9223372036854775808) 1).2 = runner ∧
      ∃ error, (runner.runMany #[0] #[7, 8] (some 9223372036854775808) 1).1 = .error error) ∧
    ¬ Refuses runner.config #[0] #[7, 8] none ∧ (#[7, 8] : Array UInt8).size ≤ maxInputSize ∧
    ∃ memory, initialMemory #[7, 8] = .ok memory ∧ memory.flat 0xFEFF0001 = ⟨.read, 8⟩ ∧
      memory.flat 0xFEFF0FFF = ⟨.read, 0⟩ ∧ memory.flat 0xFEFF1000 = ⟨.none, 0⟩ ∧
      memory.load 0xFEFF0000 2 = .ok #[7, 8] ∧
      ∃ machine, ((Batch.start runner.pool 1).turns runner.dispatcher
          ⟨#[0], 10000000, initialRegisters 2, memory⟩ [0]).phases[0]? = some (.loaded machine) ∧
        machine.pc = 0 ∧ machine.memory = memory := by
  intro runner
  have short : (#[7, 8] : Array UInt8).size ≤ maxInputSize := by decide
  have rich : Refuses runner.config #[0] #[7, 8] (some 9223372036854775808) := .inr (.inr (by decide))
  have modest : ¬ Refuses runner.config #[0] #[7, 8] none := by
    unfold Refuses
    decide
  obtain ⟨fails, stays, -⟩ :=
    runs_start_from_their_image runner #[0] #[7, 8] (some 9223372036854775808) 1
  obtain ⟨error, failed, -⟩ := fails.mpr rich
  obtain ⟨-, -, starts⟩ := runs_start_from_their_image runner #[0] #[7, 8] none 1
  obtain ⟨memory, built, image, found, -, -, admitted⟩ := starts short
  obtain ⟨-, -, resets⟩ := admitted modest
  obtain ⟨before, same⟩ := resets [0] 0
    ((Machine.idle 1).reset #[0] 0 10000000 (some (initialRegisters 2)) (some memory)) rfl
  refine ⟨⟨stays rich, error, failed⟩, modest, short, memory, built, ?_, ?_, ?_, found, _, rfl, ?_, ?_⟩
  · exact image.contents 0xFEFF0001 ((covers_iff _).mpr (by decide))
  · exact image.contents 0xFEFF0FFF ((covers_iff _).mpr (by decide))
  · exact image.nothingElse 0xFEFF1000 (by decide) (mt (covers_iff _).mp (by decide))
  · exact congrArg Machine.pc same
  · exact congrArg Machine.memory same

end Runner

end Node

end MeteredVm
