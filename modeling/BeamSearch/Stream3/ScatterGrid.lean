import BeamSearch.Stream3.ScatterThreads

/-
  All blocks of the Stream 3 scatter.

  The kernel is launched with a block of 256 threads for every
  shard and for one more. A block that finds the group of a shard
  scatters its rows to the bank that the prepare kernel chose.
  The threads of all blocks run in any order over the rows and
  the counts of all banks. Counts are 32-bit words. A batch has
  no more rows than an `int` counts, so that a loop variable
  never wraps.

  Main declarations:
    * `ScatterGrid`, `stepGrid`
    * `GridRaisesLast`
    * `Mirrors`, `mirrors_run`
    * `GridScattered`
    * `gridScattered_of_guarded`, `guarded_of_stores`
-/

namespace BeamSearch

open Threads

namespace Stream3

variable {block : Nat} {group : Nat × Nat}

----------------
-- The Kernel
----------------

/- What the scatter is launched on. -/
structure ScatterGrid where
  geometry : ShardGeometry
  fatalFlag : Nat
  groups : List (Nat × Nat)
  cleanCount : Nat → Nat
  counts : PartitionCounts
  partitionVal : Nat → CandidateMeta

/-
  The rows and the dirty counts of all banks. `stores` lists, for
  every shard, its rows stored so far with their places among all
  survivors.
-/
structure GridMemory where
  dirtyCount : Nat → Nat
  survivors : Nat → CandidateMeta
  stores : Nat → List (Nat × Nat)

/- The threads of all blocks over the memory of the grid. -/
abbrev GridPool : Type :=
  Pool GridMemory ScatterThread

namespace ScatterGrid

/- The group of a block; a block without one returns at once. -/
def group?
    (grid : ScatterGrid)
    (block : Nat) : Option (Nat × Nat) :=
  if grid.fatalFlag ≠ 0 then
    none
  else if block < grid.geometry.shardCount + 1 then
    grid.groups[block]?.filter fun group =>
      group.1 < grid.geometry.shardCount
  else
    none

/- The place of a position of a shard's bank among all survivors. -/
def place (grid : ScatterGrid) (shard position : Nat) : Nat :=
  grid.counts.target shard * grid.geometry.shardCapacity +
    position

/- The body of the loop for one row. -/
def handleRow
    (grid : ScatterGrid)
    (shard : Nat)
    (memory : GridMemory)
    (thread : ScatterThread) : GridMemory :=
  let place :=
    grid.place shard (thread.dirtyBase + thread.index)
  if thread.index < grid.counts.shardCounts shard then
    { memory with
      survivors :=
        Function.update memory.survivors place
          (grid.partitionVal
            (grid.counts.shardOffsets shard + thread.index))
      stores :=
        Function.update memory.stores shard
          (memory.stores shard ++ [(thread.index, place)]) }
  else
    -- Two banks: what does not fit is not spilled either.
    memory

/- One step of a thread of the block of a group. -/
def stepBlock
    (grid : ScatterGrid)
    (group : Nat × Nat)
    (tid : Nat)
    (memory : GridMemory)
    (thread : ScatterThread) : GridMemory × ScatterThread :=
  let physical := grid.counts.target group.1
  match thread.phase with
  | .reading =>
      (memory,
        { phase := .looping
          dirtyBase :=
            (grid.cleanCount physical +
                memory.dirtyCount physical) %
              2 ^ 32
          index := tid })
  | .looping =>
      if thread.index < group.2 then
        (grid.handleRow group.1 memory thread,
          { thread with index := thread.index + 256 })
      else if tid = 0 then
        ({ memory with
            dirtyCount :=
              Function.update memory.dirtyCount physical
                ((memory.dirtyCount physical +
                    grid.counts.shardCounts group.1) %
                  2 ^ 32) },
          { thread with phase := .finished })
      else
        (memory, { thread with phase := .finished })
  | .finished => (memory, thread)

/- Threads are numbered through all blocks. -/
def stepGrid
    (grid : ScatterGrid)
    (thread : Nat)
    (memory : GridMemory)
    (registers : ScatterThread) : GridMemory × ScatterThread :=
  match grid.group? (thread / 256) with
  | none => (memory, registers)
  | some group =>
      grid.stepBlock group (thread % 256) memory registers

/- Before any thread has moved. -/
def start
    (dirtyCount : Nat → Nat)
    (survivors : Nat → CandidateMeta) : GridPool where
  shared :=
    { dirtyCount := dirtyCount
      survivors := survivors
      stores := fun _ => [] }
  threads := fun _ =>
    { phase := .reading
      dirtyBase := 0
      index := 0 }

/- All blocks have ended. -/
def Complete (grid : ScatterGrid) (pool : GridPool) : Prop :=
  ∀ block group, grid.group? block = some group →
    ∀ tid < 256,
      (pool.threads (256 * block + tid)).phase = .finished

end ScatterGrid

open ScatterGrid

/-
  Thread zero of a block raises the dirty count only where every
  thread of the block that stores a row has read it.
-/
def GridRaisesLast
    (grid : ScatterGrid)
    (pool : GridPool)
    (thread : Nat) : Prop :=
  ∀ group, grid.group? (thread / 256) = some group →
    thread % 256 = 0 →
    (pool.threads thread).phase = .looping →
    group.2 ≤ (pool.threads thread).index →
    ∀ other < 256, other < grid.counts.shardCounts group.1 →
      (pool.threads (256 * (thread / 256) + other)).phase ≠
        .reading

----------------
-- The Groups Of The Blocks
----------------

variable {grid : ScatterGrid}

theorem group?_eq_some_iff :
    grid.group? block = some group ↔
      grid.fatalFlag = 0 ∧ block < grid.geometry.shardCount + 1 ∧
        grid.groups[block]? = some group ∧
        group.1 < grid.geometry.shardCount := by
  unfold group?
  by_cases hFlag : grid.fatalFlag = 0
  · rw [if_neg (not_not.mpr hFlag)]
    by_cases hBlock : block < grid.geometry.shardCount + 1
    · rw [if_pos hBlock, Option.filter_eq_some_iff,
        decide_eq_true_eq]
      exact
        ⟨fun hSome => ⟨hFlag, hBlock, hSome⟩,
          fun hAll => hAll.2.2⟩
    · rw [if_neg hBlock]
      exact
        ⟨fun hSome => absurd hSome.symm (Option.some_ne_none _),
          fun hAll => absurd hAll.2.1 hBlock⟩
  · rw [if_pos hFlag]
    exact
      ⟨fun hSome => absurd hSome.symm (Option.some_ne_none _),
        fun hAll => absurd hAll.1 hFlag⟩

theorem mem_groups_of_group?
    (hGroup : grid.group? block = some group) :
    group ∈ grid.groups :=
  List.mem_of_getElem? (group?_eq_some_iff.mp hGroup).2.2.1

/- Increasing shards leave no group behind the blocks. -/
theorem index_le_of_sorted
    {groups : List (Nat × Nat)}
    (hSorted : groups.Pairwise fun a b => a.1 < b.1)
    (i : Nat)
    (hInside : i < groups.length) :
    i ≤ groups[i].1 := by
  induction i with
  | zero => exact Nat.zero_le _
  | succ i ih =>
      have hBefore : i < groups.length := by omega
      have hStep :=
        List.pairwise_iff_getElem.mp hSorted i (i + 1) hBefore
          hInside (Nat.lt_succ_self i)
      have hIndex := ih hBefore
      omega

/- Every group of a shard has its block. -/
theorem exists_block
    (hFlag : grid.fatalFlag = 0)
    (hSorted : grid.groups.Pairwise fun a b => a.1 < b.1)
    (hMem : group ∈ grid.groups)
    (hLive : group.1 < grid.geometry.shardCount) :
    ∃ block, grid.group? block = some group := by
  rcases List.getElem_of_mem hMem with ⟨block, hInside, hGroup⟩
  have hIndex := index_le_of_sorted hSorted block hInside
  rw [hGroup] at hIndex
  refine ⟨block, group?_eq_some_iff.mpr ⟨hFlag, by omega, ?_, hLive⟩⟩
  rw [List.getElem?_eq_getElem hInside, hGroup]

/- Two blocks never share a shard. -/
theorem eq_block_of_shard
    {other : Nat}
    {otherGroup : Nat × Nat}
    (hSorted : grid.groups.Pairwise fun a b => a.1 < b.1)
    (hGroup : grid.group? block = some group)
    (hOther : grid.group? other = some otherGroup)
    (hShard : group.1 = otherGroup.1) :
    block = other := by
  have hHere := (group?_eq_some_iff.mp hGroup).2.2.1
  have hThere := (group?_eq_some_iff.mp hOther).2.2.1
  rcases List.getElem?_eq_some_iff.mp hHere with ⟨hIn, hAt⟩
  rcases List.getElem?_eq_some_iff.mp hThere with ⟨hOtherIn, hOtherAt⟩
  rcases Nat.lt_trichotomy block other with hLt | hSame | hGt
  · have hStep :=
      List.pairwise_iff_getElem.mp hSorted block other hIn hOtherIn
        hLt
    rw [hAt, hOtherAt] at hStep
    omega
  · exact hSame
  · have hStep :=
      List.pairwise_iff_getElem.mp hSorted other block hOtherIn hIn
        hGt
    rw [hAt, hOtherAt] at hStep
    omega

theorem eq_of_address_eq
    {capacity p q x y : Nat}
    (hX : x < capacity)
    (hY : y < capacity)
    (hEq : p * capacity + x = q * capacity + y) :
    p = q ∧ x = y := by
  rcases Nat.lt_trichotomy p q with hLt | hSame | hGt
  · have hStep := Nat.mul_le_mul_right capacity hLt
    rw [Nat.succ_mul] at hStep
    omega
  · subst hSame
    exact ⟨rfl, by omega⟩
  · have hStep := Nat.mul_le_mul_right capacity hGt
    rw [Nat.succ_mul] at hStep
    omega

/- The bank of a shard tells the shard. -/
theorem logicalShard_target
    (counts : PartitionCounts)
    (shard : Nat) :
    logicalShard (counts.target shard) = shard :=
  logicalShard_physicalShard shard
    (Nat.mod_lt _ (by decide : 0 < shardBufferCount))

----------------
-- What A Step Does
----------------

/- The cases of a step of a thread of the block of a group. -/
inductive GridMove
    (grid : ScatterGrid)
    (group : Nat × Nat)
    (tid : Nat)
    (memory : GridMemory)
    (thread : ScatterThread) :
    GridMemory → ScatterThread → Prop where
  | read
      (hPhase : thread.phase = .reading) :
      GridMove grid group tid memory thread memory
        { phase := .looping
          dirtyBase :=
            (grid.cleanCount (grid.counts.target group.1) +
                memory.dirtyCount (grid.counts.target group.1)) %
              2 ^ 32
          index := tid }
  | store
      (hPhase : thread.phase = .looping)
      (hRow : thread.index < group.2)
      (hLimit :
        thread.index < grid.counts.shardCounts group.1) :
      GridMove grid group tid memory thread
        { memory with
          survivors :=
            Function.update memory.survivors
              (grid.place group.1
                (thread.dirtyBase + thread.index))
              (grid.partitionVal
                (grid.counts.shardOffsets group.1 +
                  thread.index))
          stores :=
            Function.update memory.stores group.1
              (memory.stores group.1 ++
                [(thread.index,
                  grid.place group.1
                    (thread.dirtyBase + thread.index))]) }
        { phase := .looping
          dirtyBase := thread.dirtyBase
          index := thread.index + 256 }
  | pass
      (hPhase : thread.phase = .looping)
      (hRow : thread.index < group.2)
      (hLimit :
        grid.counts.shardCounts group.1 ≤ thread.index) :
      GridMove grid group tid memory thread memory
        { phase := .looping
          dirtyBase := thread.dirtyBase
          index := thread.index + 256 }
  | raise
      (hPhase : thread.phase = .looping)
      (hRow : group.2 ≤ thread.index)
      (hZero : tid = 0) :
      GridMove grid group tid memory thread
        { memory with
          dirtyCount :=
            Function.update memory.dirtyCount
              (grid.counts.target group.1)
              ((memory.dirtyCount (grid.counts.target group.1) +
                  grid.counts.shardCounts group.1) %
                2 ^ 32) }
        { thread with phase := .finished }
  | finish
      (hPhase : thread.phase = .looping)
      (hRow : group.2 ≤ thread.index)
      (hOther : tid ≠ 0) :
      GridMove grid group tid memory thread memory
        { thread with phase := .finished }
  | idle
      (hPhase : thread.phase = .finished) :
      GridMove grid group tid memory thread memory thread

theorem stepBlock_move
    (grid : ScatterGrid)
    (group : Nat × Nat)
    (tid : Nat)
    (memory : GridMemory)
    (thread : ScatterThread) :
    GridMove grid group tid memory thread
      (grid.stepBlock group tid memory thread).1
      (grid.stepBlock group tid memory thread).2 := by
  unfold stepBlock
  cases hPhase : thread.phase with
  | reading => exact GridMove.read hPhase
  | looping =>
      dsimp only
      by_cases hRow : thread.index < group.2
      · rw [if_pos hRow]
        unfold handleRow
        dsimp only
        by_cases hLimit :
            thread.index < grid.counts.shardCounts group.1
        · rw [if_pos hLimit]
          exact GridMove.store hPhase hRow hLimit
        · rw [if_neg hLimit]
          exact
            GridMove.pass hPhase hRow (Nat.le_of_not_lt hLimit)
      · rw [if_neg hRow]
        have hEnd := Nat.le_of_not_lt hRow
        by_cases hZero : tid = 0
        · rw [if_pos hZero]
          exact GridMove.raise hPhase hEnd hZero
        · rw [if_neg hZero]
          exact GridMove.finish hPhase hEnd hZero
  | finished => exact GridMove.idle hPhase

/- A step is a move of a thread of some block, or nothing. -/
theorem stepGrid_cases
    (grid : ScatterGrid)
    (pool : GridPool)
    (thread : Nat) :
    (grid.group? (thread / 256) = none ∧
        stepAt grid.stepGrid pool thread = pool) ∨
      ∃ group memory registers,
        grid.group? (thread / 256) = some group ∧
          GridMove grid group (thread % 256) pool.shared
            (pool.threads thread) memory registers ∧
          stepAt grid.stepGrid pool thread =
            { shared := memory
              threads :=
                Function.update pool.threads thread registers } := by
  unfold stepAt stepGrid
  cases hGroup : grid.group? (thread / 256) with
  | none =>
      refine Or.inl ⟨rfl, ?_⟩
      dsimp only
      rw [Function.update_eq_self]
  | some group =>
      exact
        Or.inr
          ⟨group, _, _, rfl, stepBlock_move _ _ _ _ _, rfl⟩

----------------
-- The Threads Of One Block
----------------

/- The first free position of a shard's bank, a 32-bit word. -/
def ScatterGrid.base
    (grid : ScatterGrid)
    (dirtyCount : Nat → Nat)
    (shard : Nat) : Nat :=
  (grid.cleanCount (grid.counts.target shard) +
      dirtyCount (grid.counts.target shard)) %
    2 ^ 32

/- What the prepare kernel leaves where it raises no flag. -/
structure GridFits
    (grid : ScatterGrid)
    (dirtyCount : Nat → Nat) : Prop where
  sorted : grid.groups.Pairwise fun a b => a.1 < b.1
  capacity : grid.geometry.shardCapacity < 2 ^ 32
  count :
    ∀ block group, grid.group? block = some group →
      grid.counts.shardCounts group.1 = group.2
  room :
    ∀ block group, grid.group? block = some group →
      grid.base dirtyCount group.1 + group.2 ≤
        grid.geometry.shardCapacity

/-
  A block by itself. The bank's rows are all in its clean count,
  so that the dirty count holds what the block adds.
-/
def ScatterGrid.launch
    (grid : ScatterGrid)
    (dirtyCount : Nat → Nat)
    (group : Nat × Nat)
    (hRoom :
      grid.base dirtyCount group.1 + group.2 ≤
        grid.geometry.shardCapacity) :
    ScatterLaunch where
  blockDim := 256
  rawCount := group.2
  writeLimit := group.2
  cleanCount := grid.base dirtyCount group.1
  dirtyCount := 0
  shardCapacity := grid.geometry.shardCapacity
  physicalShard := grid.counts.target group.1
  sourceBase := grid.counts.shardOffsets group.1
  spillBase := 0
  bufferCount := shardBufferCount
  globalSpillCapacity := 0
  partitionVal := grid.partitionVal
  blockDim_pos := scatterBlock_pos
  limit_le := Nat.le_refl _
  room := by
    intro row hRow
    omega

/- The threads of a block, among all threads. -/
def ownThread (block thread : Nat) : Option Nat :=
  if thread / 256 = block then some (thread % 256) else none

theorem ownThread_eq_some_iff
    {thread tid : Nat} :
    ownThread block thread = some tid ↔
      thread / 256 = block ∧ thread % 256 = tid := by
  unfold ownThread
  by_cases hBlock : thread / 256 = block
  · rw [if_pos hBlock, Option.some.injEq]
    exact ⟨fun hTid => ⟨hBlock, hTid⟩, fun hBoth => hBoth.2⟩
  · rw [if_neg hBlock]
    exact
      ⟨fun hSome => absurd hSome.symm (Option.some_ne_none _),
        fun hBoth => absurd hBoth.1 hBlock⟩

theorem ownThread_eq_none_iff
    {thread : Nat} :
    ownThread block thread = none ↔ thread / 256 ≠ block := by
  unfold ownThread
  by_cases hBlock : thread / 256 = block
  · rw [if_pos hBlock]
    exact
      ⟨fun hNone => absurd hNone (Option.some_ne_none _),
        fun hNe => absurd hBlock hNe⟩
  · rw [if_neg hBlock]
    exact ⟨fun _ => hBlock, fun _ => rfl⟩

/- A count that some rows were added to, or that was left alone. -/
def Grown (before added after : Nat) : Prop :=
  (added = 0 ∧ after = before) ∨
    after = (before + added) % 2 ^ 32

theorem Grown.add
    {before added after : Nat}
    (hGrown : Grown before added after)
    (more : Nat) :
    Grown before (added + more) ((after + more) % 2 ^ 32) := by
  refine Or.inr ?_
  rcases hGrown with ⟨hNone, hAfter⟩ | hAfter
  · rw [hNone, hAfter, Nat.zero_add]
  · omega

theorem Grown.eq
    {before added after : Nat}
    (hGrown : Grown before added after)
    (hWord : before + added < 2 ^ 32) :
    after = before + added := by
  rcases hGrown with ⟨hNone, hAfter⟩ | hAfter
  · omega
  · omega

/- What a block sees of the pool is the pool of its own threads. -/
structure Mirrors
    (grid : ScatterGrid)
    (dirtyCount : Nat → Nat)
    (block : Nat)
    (group : Nat × Nat)
    (launch : ScatterLaunch)
    (pool : GridPool)
    (own : ScatterPool) : Prop where
  sound : Sound launch own
  threads :
    ∀ tid < 256,
      pool.threads (256 * block + tid) = own.threads tid
  dirty :
    Grown (dirtyCount (grid.counts.target group.1))
      own.shared.dirtyCount
      (pool.shared.dirtyCount (grid.counts.target group.1))
  stores :
    pool.shared.stores group.1 =
      own.shared.stores.map fun store =>
        (store.1, grid.place group.1 store.2)

section Block

variable {dirtyCount : Nat → Nat}
variable {launch : ScatterLaunch}

variable
  {hRoom :
    grid.base dirtyCount group.1 + group.2 ≤
      grid.geometry.shardCapacity}
variable {pool : GridPool}
variable {own : ScatterPool}

theorem mirrors_start
    (grid : ScatterGrid)
    (dirtyCount : Nat → Nat)
    (block : Nat)
    (group : Nat × Nat)
    (hRoom :
      grid.base dirtyCount group.1 + group.2 ≤
        grid.geometry.shardCapacity)
    (survivors ownSurvivors spill : Nat → CandidateMeta) :
    Mirrors grid dirtyCount block group
      (grid.launch dirtyCount group hRoom)
      (ScatterGrid.start dirtyCount survivors)
      ((grid.launch dirtyCount group hRoom).start ownSurvivors
        spill) where
  sound := sound_start _ _ _
  threads _ _ := rfl
  dirty := Or.inl ⟨rfl, rfl⟩
  stores := rfl

/- A thread of the block is the thread of the same number. -/
theorem Mirrors.thread
    {thread : Nat}
    (hMirrors :
      Mirrors grid dirtyCount block group launch pool own)
    (hBlock : thread / 256 = block) :
    own.threads (thread % 256) = pool.threads thread := by
  rw [← hMirrors.threads _ (Nat.mod_lt _ scatterBlock_pos),
    ← hBlock, Nat.div_add_mod]

/- The same step in the block and in all blocks. -/
theorem Mirrors.moved
    {thread : Nat}
    {memory : GridMemory}
    {registers : ScatterThread}
    {next : ScatterMemory × ScatterThread}
    (hMirrors :
      Mirrors grid dirtyCount block group launch pool own)
    (hBlock : thread / 256 = block)
    (hNext :
      launch.stepScatter (thread % 256) own.shared
          (pool.threads thread) =
        next)
    (hRegisters : registers = next.2)
    (hDirty :
      Grown (dirtyCount (grid.counts.target group.1))
        next.1.dirtyCount
        (memory.dirtyCount (grid.counts.target group.1)))
    (hStores :
      memory.stores group.1 =
        next.1.stores.map fun store =>
          (store.1, grid.place group.1 store.2)) :
    Mirrors grid dirtyCount block group launch
      { shared := memory
        threads := Function.update pool.threads thread registers }
      (stepAt launch.stepScatter own (thread % 256)) := by
  have hStep :
      stepAt launch.stepScatter own (thread % 256) =
        { shared := next.1
          threads :=
            Function.update own.threads (thread % 256) next.2 } := by
    rw [stepAt, hMirrors.thread hBlock, hNext]
  have hSound :
      Sound launch
        (stepAt launch.stepScatter own (thread % 256)) :=
    hMirrors.sound.move (stepScatter_move _ _ _ _)
  rw [hStep] at hSound ⊢
  refine ⟨hSound, ?_, hDirty, hStores⟩
  intro tid hInside
  dsimp only
  by_cases hSelf : tid = thread % 256
  · have hThread : 256 * block + tid = thread := by omega
    rw [hThread, Function.update_self, hSelf,
      Function.update_self, hRegisters]
  · rw [Function.update_of_ne hSelf,
      Function.update_of_ne (by omega)]
    exact hMirrors.threads tid hInside

/- The sum of the counts that a thread of the block reads. -/
theorem Mirrors.read_base
    (hMirrors :
      Mirrors grid dirtyCount block group
        (grid.launch dirtyCount group hRoom) pool own)
    (hCapacity : grid.geometry.shardCapacity < 2 ^ 32) :
    (grid.cleanCount (grid.counts.target group.1) +
          pool.shared.dirtyCount (grid.counts.target group.1)) %
        2 ^ 32 =
      grid.base dirtyCount group.1 + own.shared.dirtyCount := by
  have hCounter : own.shared.dirtyCount ≤ group.2 := by
    rw [hMirrors.sound.counter]
    dsimp only [ScatterGrid.launch]
    split
    · omega
    · omega
  have hWord :
      grid.base dirtyCount group.1 + own.shared.dirtyCount <
        2 ^ 32 := by
    omega
  unfold ScatterGrid.base at hWord ⊢
  rcases hMirrors.dirty with ⟨hNone, hSame⟩ | hGrown
  · rw [hNone, hSame, Nat.add_zero]
  · rw [hGrown]
    omega

/- A step of a thread of the block is a step of its own. -/
theorem Mirrors.ownStep
    {thread : Nat}
    (hMirrors :
      Mirrors grid dirtyCount block group
        (grid.launch dirtyCount group hRoom) pool own)
    (hFits : GridFits grid dirtyCount)
    (hGroup : grid.group? block = some group)
    (hBlock : thread / 256 = block) :
    Mirrors grid dirtyCount block group
      (grid.launch dirtyCount group hRoom)
      (stepAt grid.stepGrid pool thread)
      (stepAt (grid.launch dirtyCount group hRoom).stepScatter own
        (thread % 256)) := by
  let launch := grid.launch dirtyCount group hRoom
  have hInside : thread % 256 < launch.blockDim :=
    Nat.mod_lt _ scatterBlock_pos
  have hCount := hFits.count block group hGroup
  rcases stepGrid_cases grid pool thread with
    ⟨hNone, -⟩ | ⟨found, memory, registers, hFound, hMove, hStep⟩
  · rw [hBlock, hGroup] at hNone
    cases hNone
  · rw [hBlock, hGroup] at hFound
    cases hFound
    rw [hStep]
    cases hMove with
    | read hPhase =>
        have hNext :
            launch.stepScatter (thread % 256) own.shared
                (pool.threads thread) =
              (own.shared,
                { phase := .looping
                  dirtyBase :=
                    grid.base dirtyCount group.1 +
                      own.shared.dirtyCount
                  index := thread % 256 }) := by
          rw [ScatterLaunch.stepScatter, if_pos hInside, hPhase]
          rfl
        rw [hMirrors.read_base hFits.capacity]
        exact
          hMirrors.moved hBlock hNext rfl hMirrors.dirty
            hMirrors.stores
    | store hPhase hRow hLimit =>
        have hNext :
            launch.stepScatter (thread % 256) own.shared
                (pool.threads thread) =
              (launch.handleRow own.shared (pool.threads thread),
                { phase := .looping
                  dirtyBase := (pool.threads thread).dirtyBase
                  index := (pool.threads thread).index + 256 }) := by
          rw [ScatterLaunch.stepScatter, if_pos hInside, hPhase]
          exact if_pos hRow
        have hLaunch :
            (pool.threads thread).index < launch.writeLimit :=
          hRow
        rw [ScatterLaunch.handleRow, if_pos hLaunch] at hNext
        refine
          hMirrors.moved hBlock hNext rfl hMirrors.dirty ?_
        dsimp only
        rw [Function.update_self, hMirrors.stores,
          List.map_append]
        rfl
    | pass hPhase hRow hLimit => omega
    | raise hPhase hRow hZero =>
        have hEnd :
            ¬ (pool.threads thread).index < launch.rawCount :=
          Nat.not_lt.mpr hRow
        have hNext :
            launch.stepScatter (thread % 256) own.shared
                (pool.threads thread) =
              ({ own.shared with
                  dirtyCount :=
                    own.shared.dirtyCount + group.2 },
                { pool.threads thread with
                  phase := .finished }) := by
          rw [ScatterLaunch.stepScatter, if_pos hInside, hPhase]
          dsimp only
          rw [if_neg hEnd, if_pos hZero]
          rfl
        refine
          hMirrors.moved hBlock hNext rfl ?_ hMirrors.stores
        dsimp only
        rw [Function.update_self, hCount]
        exact hMirrors.dirty.add group.2
    | finish hPhase hRow hOther =>
        have hEnd :
            ¬ (pool.threads thread).index < launch.rawCount :=
          Nat.not_lt.mpr hRow
        have hNext :
            launch.stepScatter (thread % 256) own.shared
                (pool.threads thread) =
              (own.shared,
                { pool.threads thread with
                  phase := .finished }) := by
          rw [ScatterLaunch.stepScatter, if_pos hInside, hPhase]
          dsimp only
          rw [if_neg hEnd, if_neg hOther]
        exact
          hMirrors.moved hBlock hNext rfl hMirrors.dirty
            hMirrors.stores
    | idle hPhase =>
        have hNext :
            launch.stepScatter (thread % 256) own.shared
                (pool.threads thread) =
              (own.shared, pool.threads thread) := by
          rw [ScatterLaunch.stepScatter, if_pos hInside, hPhase]
        exact
          hMirrors.moved hBlock hNext rfl hMirrors.dirty
            hMirrors.stores

/- A move touches the bank of its group only. -/
theorem GridMove.frame
    {tid : Nat}
    {memory next : GridMemory}
    {thread registers : ScatterThread}
    (hMove :
      GridMove grid group tid memory thread next registers) :
    (∀ shard ≠ group.1,
        next.stores shard = memory.stores shard) ∧
      ∀ physical ≠ grid.counts.target group.1,
        next.dirtyCount physical = memory.dirtyCount physical := by
  cases hMove with
  | read hPhase => exact ⟨fun _ _ => rfl, fun _ _ => rfl⟩
  | store hPhase hRow hLimit =>
      exact
        ⟨fun _ hNe => Function.update_of_ne hNe _ _,
          fun _ _ => rfl⟩
  | pass hPhase hRow hLimit =>
      exact ⟨fun _ _ => rfl, fun _ _ => rfl⟩
  | raise hPhase hRow hZero =>
      exact
        ⟨fun _ _ => rfl,
          fun _ hNe => Function.update_of_ne hNe _ _⟩
  | finish hPhase hRow hOther =>
      exact ⟨fun _ _ => rfl, fun _ _ => rfl⟩
  | idle hPhase => exact ⟨fun _ _ => rfl, fun _ _ => rfl⟩

/- A step of another block leaves the block alone. -/
theorem Mirrors.otherStep
    {thread : Nat}
    (hMirrors :
      Mirrors grid dirtyCount block group launch pool own)
    (hSorted : grid.groups.Pairwise fun a b => a.1 < b.1)
    (hGroup : grid.group? block = some group)
    (hOther : thread / 256 ≠ block) :
    Mirrors grid dirtyCount block group launch
      (stepAt grid.stepGrid pool thread) own := by
  rcases stepGrid_cases grid pool thread with
    ⟨-, hStep⟩ | ⟨found, memory, registers, hFound, hMove, hStep⟩
  · rw [hStep]
    exact hMirrors
  · have hShard : group.1 ≠ found.1 := fun hSame =>
      hOther
        (eq_block_of_shard hSorted hGroup hFound hSame).symm
    have hBank :
        grid.counts.target group.1 ≠
          grid.counts.target found.1 := fun hSame =>
      hShard (by
        rw [← logicalShard_target grid.counts group.1, hSame,
          logicalShard_target])
    rcases hMove.frame with ⟨hStores, hDirty⟩
    rw [hStep]
    refine ⟨hMirrors.sound, ?_, ?_, ?_⟩
    · intro tid hInside
      dsimp only
      rw [Function.update_of_ne (by omega)]
      exact hMirrors.threads tid hInside
    · dsimp only
      rw [hDirty _ hBank]
      exact hMirrors.dirty
    · dsimp only
      rw [hStores _ hShard]
      exact hMirrors.stores

/- A guard on all blocks is the guard of every block. -/
theorem Mirrors.raisesLast_iff
    {thread : Nat}
    (hMirrors :
      Mirrors grid dirtyCount block group
        (grid.launch dirtyCount group hRoom) pool own)
    (hFits : GridFits grid dirtyCount)
    (hGroup : grid.group? block = some group)
    (hBlock : thread / 256 = block) :
    GridRaisesLast grid pool thread ↔
      RaisesLast (grid.launch dirtyCount group hRoom) own
        (thread % 256) := by
  have hCount := hFits.count block group hGroup
  have hThread := hMirrors.thread hBlock
  unfold GridRaisesLast RaisesLast HasRead
  rw [hBlock]
  constructor
  · intro hRaises hZero hPhase hEnd other hInside hStores
    rw [← hZero, hThread] at hPhase hEnd
    rw [← hMirrors.threads other hInside]
    exact
      hRaises group hGroup hZero hPhase hEnd other hInside
        (hStores.trans_eq hCount.symm)
  · intro hRaises found hFound hZero hPhase hEnd other hInside
      hStores
    rw [hGroup] at hFound
    cases hFound
    rw [hMirrors.threads other hInside]
    rw [← hThread, hZero] at hPhase hEnd
    exact
      hRaises hZero hPhase hEnd other hInside
        (hStores.trans_eq hCount)

/- Every run is, for every block, a run of its own threads. -/
theorem mirrors_run
    (hFits : GridFits grid dirtyCount)
    (hGroup : grid.group? block = some group)
    (hRoom :
      grid.base dirtyCount group.1 + group.2 ≤
        grid.geometry.shardCapacity)
    (survivors ownSurvivors spill : Nat → CandidateMeta)
    (schedule : List Nat) :
    Mirrors grid dirtyCount block group
      (grid.launch dirtyCount group hRoom)
      (run grid.stepGrid (ScatterGrid.start dirtyCount survivors)
        schedule)
      (run (grid.launch dirtyCount group hRoom).stepScatter
        ((grid.launch dirtyCount group hRoom).start ownSurvivors
          spill)
        (schedule.filterMap (ownThread block))) := by
  refine
    run_select ?_ ?_
      (mirrors_start grid dirtyCount block group hRoom survivors
        ownSurvivors spill)
      schedule
  · intro pool own thread tid hMirrors hOwn
    rcases ownThread_eq_some_iff.mp hOwn with ⟨hBlock, hTid⟩
    rw [← hTid]
    exact hMirrors.ownStep hFits hGroup hBlock
  · intro pool own thread hMirrors hNone
    exact
      hMirrors.otherStep hFits.sorted hGroup
        (ownThread_eq_none_iff.mp hNone)

/- Guarded blocks are guarded each. -/
theorem guarded_block
    {survivors : Nat → CandidateMeta}
    {schedule : List Nat}
    (hFits : GridFits grid dirtyCount)
    (hGroup : grid.group? block = some group)
    (hRoom :
      grid.base dirtyCount group.1 + group.2 ≤
        grid.geometry.shardCapacity)
    (hGuarded :
      Guarded grid.stepGrid (GridRaisesLast grid)
        (ScatterGrid.start dirtyCount survivors) schedule) :
    let launch := grid.launch dirtyCount group hRoom
    Guarded launch.stepScatter (RaisesLast launch)
      (launch.start survivors survivors)
      (schedule.filterMap (ownThread block)) := by
  refine
    guarded_select ?_ ?_ ?_
      (mirrors_start grid dirtyCount block group hRoom survivors
        survivors survivors)
      hGuarded
  · intro pool own thread tid hMirrors hOwn
    rcases ownThread_eq_some_iff.mp hOwn with ⟨hBlock, hTid⟩
    rw [← hTid]
    exact hMirrors.ownStep hFits hGroup hBlock
  · intro pool own thread hMirrors hNone
    exact
      hMirrors.otherStep hFits.sorted hGroup
        (ownThread_eq_none_iff.mp hNone)
  · intro pool own thread tid hMirrors hOwn hRaises
    rcases ownThread_eq_some_iff.mp hOwn with ⟨hBlock, hTid⟩
    rw [← hTid]
    exact (hMirrors.raisesLast_iff hFits hGroup hBlock).mp hRaises

theorem Mirrors.complete
    (hMirrors :
      Mirrors grid dirtyCount block group
        (grid.launch dirtyCount group hRoom) pool own)
    (hGroup : grid.group? block = some group)
    (hComplete : grid.Complete pool) :
    (grid.launch dirtyCount group hRoom).Complete own := by
  intro tid hInside
  rw [← hMirrors.threads tid hInside]
  exact hComplete block group hGroup tid hInside

end Block

----------------
-- The Rows Of All Blocks
----------------

/- What the blocks leave behind, in every run. -/
structure Booked
    (grid : ScatterGrid)
    (dirtyCount : Nat → Nat)
    (survivors : Nat → CandidateMeta)
    (memory : GridMemory) : Prop where
  /- A place holds its old row, or one that was stored there. -/
  written :
    ∀ i,
      ((∀ shard row, (row, i) ∉ memory.stores shard) ∧
          memory.survivors i = survivors i) ∨
        ∃ shard row, (row, i) ∈ memory.stores shard ∧
          memory.survivors i =
            grid.partitionVal
              (grid.counts.shardOffsets shard + row)
  stores :
    ∀ shard,
      (∀ block group, grid.group? block = some group →
        group.1 ≠ shard) →
      memory.stores shard = []
  dirty :
    ∀ physical,
      (∀ block group, grid.group? block = some group →
        grid.counts.target group.1 ≠ physical) →
      memory.dirtyCount physical = dirtyCount physical

/- A stored row is the one its place holds. -/
theorem Booked.written_store
    {dirtyCount : Nat → Nat}
    {survivors : Nat → CandidateMeta}
    {memory : GridMemory}
    (hBooked : Booked grid dirtyCount survivors memory)
    (shard row place i : Nat) :
    let stores :=
      Function.update memory.stores shard
        (memory.stores shard ++ [(row, place)])
    let written :=
      Function.update memory.survivors place
        (grid.partitionVal (grid.counts.shardOffsets shard + row))
    ((∀ shard row, (row, i) ∉ stores shard) ∧
        written i = survivors i) ∨
      ∃ shard row, (row, i) ∈ stores shard ∧
        written i =
          grid.partitionVal
            (grid.counts.shardOffsets shard + row) := by
  intro stores written
  have hMem :
      ∀ other otherRow,
        (otherRow, i) ∈ stores other ↔
          (otherRow, i) ∈ memory.stores other ∨
            other = shard ∧ otherRow = row ∧ i = place := by
    intro other otherRow
    dsimp only [stores]
    by_cases hShard : other = shard
    · rw [hShard, Function.update_self, List.mem_append,
        List.mem_singleton, Prod.mk.injEq]
      simp
    · rw [Function.update_of_ne hShard]
      simp [hShard]
  by_cases hPlace : i = place
  · refine Or.inr ⟨shard, row, ?_, ?_⟩
    · exact (hMem shard row).mpr (Or.inr ⟨rfl, rfl, hPlace⟩)
    · dsimp only [written]
      rw [hPlace, Function.update_self]
  · have hSame : written i = memory.survivors i :=
      Function.update_of_ne hPlace _ _
    rw [hSame]
    rcases hBooked.written i with ⟨hNone, hKept⟩ | hStored
    · refine Or.inl ⟨fun other otherRow hStored => ?_, hKept⟩
      rcases (hMem other otherRow).mp hStored with hOld | hNew
      · exact hNone other otherRow hOld
      · exact hPlace hNew.2.2
    · rcases hStored with ⟨other, otherRow, hOld, hValue⟩
      exact
        Or.inr
          ⟨other, otherRow, (hMem other otherRow).mpr (Or.inl hOld),
            hValue⟩

theorem Booked.step
    {dirtyCount : Nat → Nat}
    {survivors : Nat → CandidateMeta}
    {pool : GridPool}
    (hBooked : Booked grid dirtyCount survivors pool.shared)
    (thread : Nat) :
    Booked grid dirtyCount survivors
      (stepAt grid.stepGrid pool thread).shared := by
  rcases stepGrid_cases grid pool thread with
    ⟨-, hStep⟩ | ⟨group, memory, registers, hGroup, hMove, hStep⟩
  · rw [hStep]
    exact hBooked
  · rcases hMove.frame with ⟨hStores, hDirty⟩
    rw [hStep]
    refine ⟨?_, ?_, ?_⟩
    · cases hMove with
      | store hPhase hRow hLimit =>
          exact fun i => hBooked.written_store _ _ _ i
      | read hPhase => exact hBooked.written
      | pass hPhase hRow hLimit => exact hBooked.written
      | raise hPhase hRow hZero => exact hBooked.written
      | finish hPhase hRow hOther => exact hBooked.written
      | idle hPhase => exact hBooked.written
    · intro shard hNone
      dsimp only
      rw [hStores shard fun hSame => hNone _ group hGroup hSame.symm]
      exact hBooked.stores shard hNone
    · intro physical hNone
      dsimp only
      rw [hDirty physical fun hSame =>
        hNone _ group hGroup hSame.symm]
      exact hBooked.dirty physical hNone

theorem booked_run
    (grid : ScatterGrid)
    (dirtyCount : Nat → Nat)
    (survivors : Nat → CandidateMeta)
    (schedule : List Nat) :
    Booked grid dirtyCount survivors
      (run grid.stepGrid (ScatterGrid.start dirtyCount survivors)
        schedule).shared := by
  refine
    run_invariant
      (J := fun pool : GridPool =>
        Booked grid dirtyCount survivors pool.shared)
      (fun _ thread hBooked => hBooked.step thread) ?_ schedule
  refine ⟨fun i => Or.inl ⟨?_, rfl⟩, fun _ _ => rfl, fun _ _ => rfl⟩
  intro shard row hMem
  cases hMem

/- The stores that append the rows of a group behind its bank. -/
def ScatterGrid.appends
    (grid : ScatterGrid)
    (dirtyCount : Nat → Nat)
    (group : Nat × Nat) : List (Nat × Nat) :=
  (List.range group.2).map fun row =>
    (row,
      grid.place group.1 (grid.base dirtyCount group.1 + row))

/- What all blocks leave where every dirty count is raised last. -/
structure GridScattered
    (grid : ScatterGrid)
    (dirtyCount : Nat → Nat)
    (survivors : Nat → CandidateMeta)
    (memory : GridMemory) : Prop where
  booked : Booked grid dirtyCount survivors memory
  stores :
    ∀ block group, grid.group? block = some group →
      (memory.stores group.1).Perm
        (grid.appends dirtyCount group)
  dirty :
    ∀ block group, grid.group? block = some group →
      Grown (dirtyCount (grid.counts.target group.1)) group.2
        (memory.dirtyCount (grid.counts.target group.1))

section Run

variable {dirtyCount : Nat → Nat}
variable {survivors : Nat → CandidateMeta}
variable {schedule : List Nat}

/- Rows stored behind the bank are rows in place for the block. -/
theorem Mirrors.appends_iff
    {block : Nat}
    {group : Nat × Nat}
    {hRoom :
      grid.base dirtyCount group.1 + group.2 ≤
        grid.geometry.shardCapacity}
    {pool : GridPool}
    {own : ScatterPool}
    (hMirrors :
      Mirrors grid dirtyCount block group
        (grid.launch dirtyCount group hRoom) pool own) :
    (pool.shared.stores group.1).Perm
        (grid.appends dirtyCount group) ↔
      RowsInPlace (grid.launch dirtyCount group hRoom)
        own.shared := by
  have hAppends :
      grid.appends dirtyCount group =
        ((List.range group.2).map fun row =>
          (row, grid.base dirtyCount group.1 + 0 + row)).map
            fun store =>
              (store.1, grid.place group.1 store.2) := by
    rw [List.map_map]
    rfl
  have hInjective :
      Function.Injective fun store : Nat × Nat =>
        (store.1, grid.place group.1 store.2) := by
    intro store other hSame
    rcases Prod.mk.inj hSame with ⟨hRow, hPlace⟩
    unfold ScatterGrid.place at hPlace
    exact Prod.ext hRow (by omega)
  rw [rowsInPlace_iff hMirrors.sound.once, hMirrors.stores, hAppends,
    List.map_perm_map_iff hInjective]
  exact Iff.rfl

theorem gridScattered_of_guarded
    (hFits : GridFits grid dirtyCount)
    (hComplete :
      grid.Complete
        (run grid.stepGrid
          (ScatterGrid.start dirtyCount survivors) schedule))
    (hGuarded :
      Guarded grid.stepGrid (GridRaisesLast grid)
        (ScatterGrid.start dirtyCount survivors) schedule) :
    GridScattered grid dirtyCount survivors
      (run grid.stepGrid (ScatterGrid.start dirtyCount survivors)
        schedule).shared := by
  have hBlock :
      ∀ block group, grid.group? block = some group →
        ((run grid.stepGrid
                (ScatterGrid.start dirtyCount survivors)
                schedule).shared.stores group.1).Perm
            (grid.appends dirtyCount group) ∧
          Grown (dirtyCount (grid.counts.target group.1)) group.2
            ((run grid.stepGrid
                (ScatterGrid.start dirtyCount survivors)
                schedule).shared.dirtyCount
              (grid.counts.target group.1)) := by
    intro block group hGroup
    have hRoom := hFits.room block group hGroup
    have hMirrors :=
      mirrors_run hFits hGroup hRoom survivors survivors survivors
        schedule
    have hOwn := guarded_block hFits hGroup hRoom hGuarded
    have hScattered :=
      scattered_of_guarded (hMirrors.complete hGroup hComplete)
        hOwn
    refine ⟨hMirrors.appends_iff.mpr hScattered.rows, ?_⟩
    have hDirty := hMirrors.dirty
    rw [hScattered.dirty] at hDirty
    simpa only [ScatterGrid.launch, Nat.zero_add] using hDirty
  exact
    { booked := booked_run grid dirtyCount survivors schedule
      stores := fun block group hGroup =>
        (hBlock block group hGroup).1
      dirty := fun block group hGroup =>
        (hBlock block group hGroup).2 }

theorem guarded_of_stores
    (hFits : GridFits grid dirtyCount)
    (hComplete :
      grid.Complete
        (run grid.stepGrid
          (ScatterGrid.start dirtyCount survivors) schedule))
    (hStores :
      ∀ block group, grid.group? block = some group →
        ((run grid.stepGrid
              (ScatterGrid.start dirtyCount survivors)
              schedule).shared.stores group.1).Perm
          (grid.appends dirtyCount group)) :
    Guarded grid.stepGrid (GridRaisesLast grid)
      (ScatterGrid.start dirtyCount survivors) schedule := by
  by_contra hNot
  rcases exists_of_not_guarded hNot with
    ⟨earlier, thread, later, hSplit, hBroken⟩
  -- The block of the thread that raises too early.
  have hSome :
      ∃ group, grid.group? (thread / 256) = some group := by
    by_contra hNone
    exact
      hBroken fun group hGroup =>
        absurd ⟨group, hGroup⟩ hNone
  rcases hSome with ⟨group, hGroup⟩
  have hRoom := hFits.room _ group hGroup
  have hEarlier :=
    mirrors_run hFits hGroup hRoom survivors survivors survivors
      earlier
  have hFinal :=
    mirrors_run hFits hGroup hRoom survivors survivors survivors
      schedule
  have hRows := hFinal.appends_iff.mp (hStores _ group hGroup)
  have hOwn :=
    guarded_of_rowsInPlace (hFinal.complete hGroup hComplete) hRows
  rw [hSplit, List.filterMap_append,
    List.filterMap_cons_some
      (ownThread_eq_some_iff.mpr ⟨rfl, rfl⟩)] at hOwn
  exact
    hBroken
      ((hEarlier.raisesLast_iff hFits hGroup rfl).mpr
        (guarded_at hOwn))

/- Places of two groups are apart. -/
theorem eq_of_place_eq
    {group other : Nat × Nat}
    {row otherRow : Nat}
    (hRoom :
      grid.base dirtyCount group.1 + group.2 ≤
        grid.geometry.shardCapacity)
    (hOtherRoom :
      grid.base dirtyCount other.1 + other.2 ≤
        grid.geometry.shardCapacity)
    (hRow : row < group.2)
    (hOther : otherRow < other.2)
    (hSame :
      grid.place group.1 (grid.base dirtyCount group.1 + row) =
        grid.place other.1
          (grid.base dirtyCount other.1 + otherRow)) :
    group.1 = other.1 ∧ row = otherRow := by
  rcases eq_of_address_eq (by omega) (by omega) hSame with
    ⟨hBank, hPosition⟩
  have hShard : group.1 = other.1 := by
    rw [← logicalShard_target grid.counts group.1, hBank,
      logicalShard_target]
  rw [hShard] at hPosition
  exact ⟨hShard, by omega⟩

/- A stored row belongs to a group, and its place is its own. -/
theorem GridScattered.origin
    {memory : GridMemory}
    {shard row i : Nat}
    (hScattered :
      GridScattered grid dirtyCount survivors memory)
    (hStore : (row, i) ∈ memory.stores shard) :
    ∃ block group, grid.group? block = some group ∧
      group.1 = shard ∧ row < group.2 ∧
      i =
        grid.place shard (grid.base dirtyCount shard + row) := by
  by_cases hSome :
      ∃ block group, grid.group? block = some group ∧
        group.1 = shard
  · rcases hSome with ⟨block, group, hGroup, hShard⟩
    subst hShard
    have hMem :=
      (hScattered.stores block group hGroup).mem_iff.mp hStore
    rcases List.mem_map.mp hMem with ⟨other, hOther, hSame⟩
    rcases Prod.mk.inj hSame with ⟨hRow, hPlace⟩
    subst hRow
    exact
      ⟨block, group, hGroup, rfl, List.mem_range.mp hOther,
        hPlace.symm⟩
  · have hNone :
        ∀ block group, grid.group? block = some group →
          group.1 ≠ shard :=
      fun block group hGroup hShard =>
        hSome ⟨block, group, hGroup, hShard⟩
    rw [hScattered.booked.stores shard hNone] at hStore
    cases hStore

/- The rows of every group stand behind the rows of its bank. -/
theorem GridScattered.stored
    {memory : GridMemory}
    (hScattered :
      GridScattered grid dirtyCount survivors memory)
    (hFits : GridFits grid dirtyCount)
    {block : Nat}
    {group : Nat × Nat}
    (hGroup : grid.group? block = some group)
    {row : Nat}
    (hRow : row < group.2) :
    memory.survivors
        (grid.place group.1
          (grid.base dirtyCount group.1 + row)) =
      grid.partitionVal
        (grid.counts.shardOffsets group.1 + row) := by
  have hMem :
      (row,
          grid.place group.1
            (grid.base dirtyCount group.1 + row)) ∈
        memory.stores group.1 :=
    (hScattered.stores block group hGroup).mem_iff.mpr
      (List.mem_map.mpr ⟨row, List.mem_range.mpr hRow, rfl⟩)
  rcases hScattered.booked.written
      (grid.place group.1
        (grid.base dirtyCount group.1 + row)) with
    ⟨hNone, -⟩ | ⟨shard, otherRow, hStore, hValue⟩
  · exact absurd hMem (hNone group.1 row)
  · rcases hScattered.origin hStore with
      ⟨otherBlock, other, hOther, hShard, hOtherRow, hPlace⟩
    subst hShard
    rcases eq_of_place_eq (hFits.room block group hGroup)
        (hFits.room otherBlock other hOther) hRow hOtherRow
        hPlace with
      ⟨hSame, hRows⟩
    rw [hValue, hSame, hRows]

/- No other row is touched. -/
theorem GridScattered.kept
    {memory : GridMemory}
    (hScattered :
      GridScattered grid dirtyCount survivors memory)
    {i : Nat}
    (hFree :
      ∀ block group, grid.group? block = some group →
        ∀ row < group.2,
          i ≠
            grid.place group.1
              (grid.base dirtyCount group.1 + row)) :
    memory.survivors i = survivors i := by
  rcases hScattered.booked.written i with
    ⟨-, hKept⟩ | ⟨shard, row, hStore, -⟩
  · exact hKept
  · rcases hScattered.origin hStore with
      ⟨block, group, hGroup, hShard, hRow, hPlace⟩
    subst hShard
    exact absurd hPlace (hFree block group hGroup row hRow)

end Run

----------------
-- One Thread After The Other
----------------

/- The steps of the threads of a block of so many rows. -/
def blockSteps (rows : Nat) : List Nat :=
  (List.range 256).flatMap fun tid =>
    List.replicate (rows + 2) tid

/- The rows of a block; a block beyond the groups has none. -/
def ScatterGrid.rows (grid : ScatterGrid) (block : Nat) : Nat :=
  ((grid.group? block).map Prod.snd).getD 0

/- Blocks after one another, each thread to its end. -/
def gridSequential (grid : ScatterGrid) : List Nat :=
  (List.range (grid.geometry.shardCount + 1)).flatMap fun block =>
    (blockSteps (grid.rows block)).map fun tid =>
      256 * block + tid

theorem lt_of_mem_blockSteps
    {rows tid : Nat}
    (hMem : tid ∈ blockSteps rows) :
    tid < 256 := by
  rcases List.mem_flatMap.mp hMem with ⟨other, hOther, hTid⟩
  rw [List.eq_of_mem_replicate hTid]
  exact List.mem_range.mp hOther

/- A list that only one entry of another contributes to. -/
theorem flatMap_eq_of_mem
    {α β : Type}
    {f : α → List β}
    {xs : List α}
    {x : α}
    (hNodup : xs.Nodup)
    (hMem : x ∈ xs)
    (hOther : ∀ y, y ≠ x → f y = []) :
    xs.flatMap f = f x := by
  induction xs with
  | nil => cases hMem
  | cons y xs ih =>
      rcases List.nodup_cons.mp hNodup with ⟨hNotMem, hRest⟩
      rw [List.flatMap_cons]
      rcases List.mem_cons.mp hMem with hHead | hTail
      · subst hHead
        have hNone : xs.flatMap f = [] :=
          List.flatMap_eq_nil_iff.mpr fun z hZ =>
            hOther z fun hSame => hNotMem (hSame ▸ hZ)
        rw [hNone, List.append_nil]
      · have hHead : y ≠ x := fun hSame =>
          hNotMem (hSame ▸ hTail)
        rw [hOther y hHead, List.nil_append, ih hRest hTail]

/- Of the steps of one block, another block sees none. -/
theorem filterMap_blockSteps
    (rows block other : Nat) :
    ((blockSteps rows).map fun tid =>
        256 * other + tid).filterMap (ownThread block) =
      if other = block then blockSteps rows else [] := by
  rw [List.filterMap_map]
  by_cases hBlock : other = block
  · rw [if_pos hBlock]
    have hSome :
        ∀ tid ∈ blockSteps rows,
          (ownThread block ∘ fun tid => 256 * other + tid) tid =
            some tid := by
      intro tid hMem
      have hInside := lt_of_mem_blockSteps hMem
      have hDiv : (256 * other + tid) / 256 = block := by omega
      have hMod : (256 * other + tid) % 256 = tid := by omega
      exact ownThread_eq_some_iff.mpr ⟨hDiv, hMod⟩
    rw [List.filterMap_congr hSome, List.filterMap_some]
  · rw [if_neg hBlock]
    refine List.filterMap_eq_nil_iff.mpr fun tid hMem => ?_
    have hInside := lt_of_mem_blockSteps hMem
    have hDiv : (256 * other + tid) / 256 ≠ block := by omega
    exact ownThread_eq_none_iff.mpr hDiv

theorem filterMap_gridSequential
    (hGroup : grid.group? block = some group) :
    (gridSequential grid).filterMap (ownThread block) =
      blockSteps group.2 := by
  have hRows : grid.rows block = group.2 := by
    rw [ScatterGrid.rows, hGroup]
    rfl
  have hBlock := (group?_eq_some_iff.mp hGroup).2.1
  rw [gridSequential, List.filterMap_flatMap,
    flatMap_eq_of_mem List.nodup_range (List.mem_range.mpr hBlock)]
  · rw [filterMap_blockSteps, if_pos rfl, hRows]
  · intro other hOther
    rw [filterMap_blockSteps, if_neg hOther]

section Sequential

variable {dirtyCount : Nat → Nat}

theorem complete_gridSequential
    (hFits : GridFits grid dirtyCount)
    (survivors : Nat → CandidateMeta) :
    grid.Complete
      (run grid.stepGrid (ScatterGrid.start dirtyCount survivors)
        (gridSequential grid)) := by
  intro block group hGroup tid hInside
  have hRoom := hFits.room block group hGroup
  have hMirrors :=
    mirrors_run hFits hGroup hRoom survivors survivors survivors
      (gridSequential grid)
  rw [hMirrors.threads tid hInside,
    filterMap_gridSequential hGroup]
  exact
    complete_sequential (grid.launch dirtyCount group hRoom) _ tid
      hInside

/- Two rows of a shard are enough for the order to matter. -/
theorem not_guarded_gridSequential
    {block : Nat}
    {group : Nat × Nat}
    (hFits : GridFits grid dirtyCount)
    (hGroup : grid.group? block = some group)
    (hRows : 2 ≤ group.2)
    (survivors : Nat → CandidateMeta) :
    ¬ Guarded grid.stepGrid (GridRaisesLast grid)
        (ScatterGrid.start dirtyCount survivors)
        (gridSequential grid) := by
  intro hGuarded
  have hRoom := hFits.room block group hGroup
  let launch := grid.launch dirtyCount group hRoom
  have hOwn := guarded_block hFits hGroup hRoom hGuarded
  rw [filterMap_gridSequential hGroup] at hOwn
  have hComplete :
      launch.Complete
        (run launch.stepScatter
          (launch.start survivors survivors)
          (sequential launch)) :=
    complete_sequential launch _
  have hLate :=
    late_sequential launch (by decide : 1 < 256) survivors
      survivors
  exact
    hLate.not_rows (by decide : 1 < 256) hRows hComplete
      (scattered_of_guarded hComplete hOwn).rows

/- Where no shard has two rows, every order will do. -/
theorem guarded_of_single
    (hSingle :
      ∀ block group, grid.group? block = some group →
        grid.counts.shardCounts group.1 ≤ 1)
    (pool : GridPool)
    (schedule : List Nat) :
    Guarded grid.stepGrid (GridRaisesLast grid) pool schedule := by
  refine
    guarded_of_forall (J := fun _ => True) (fun _ _ _ => trivial)
      ?_ trivial schedule
  intro pool thread _ group hGroup hZero hPhase _ other _ hOther
  have hOne := hSingle _ group hGroup
  have hThread : 256 * (thread / 256) + other = thread := by
    omega
  rw [hThread, hPhase]
  exact Phase.noConfusion

end Sequential

end Stream3

end BeamSearch
