import BeamSearch.Lib.Threads
import BeamSearch.Stream3.Append

/-
  The threads of one block of the Stream 3 scatter.

  A block scatters the rows of one group. Every thread reads the
  counts of the bank, stores its rows behind them, and thread
  zero raises the dirty count at its end. No barrier stands
  between the reads and the raise.

  Main declarations:
    * `ScatterLaunch`, `stepScatter`
    * `Scattered`
    * `RaisesLast`
    * `scatter_orderless_iff`
-/

namespace BeamSearch

open Threads

namespace Stream3

variable {tid : Nat} {survivors : Nat → CandidateMeta} {schedule : List Nat}

----------------
-- The Kernel
----------------

/-
  What one block of the scatter is launched on. The limit never
  exceeds the group, and the rows within it fit the bank: that is
  how the prepare kernel sets the limit.
-/
structure ScatterLaunch where
  blockDim : Nat
  rawCount : Nat
  writeLimit : Nat
  cleanCount : Nat
  dirtyCount : Nat
  shardCapacity : Nat
  physicalShard : Nat
  sourceBase : Nat
  spillBase : Nat
  bufferCount : Nat
  globalSpillCapacity : Nat
  partitionVal : Nat → CandidateMeta
  blockDim_pos : 0 < blockDim
  limit_le : writeLimit ≤ rawCount
  room :
    ∀ row < writeLimit,
      cleanCount + dirtyCount + row < shardCapacity

/- Each block of the scatter is launched with 256 threads. -/
theorem scatterBlock_pos : 0 < 256 := by
  decide

/-
  The memory the block shares. `stores` lists the rows stored so
  far with their positions in the bank.
-/
structure ScatterMemory where
  dirtyCount : Nat
  survivors : Nat → CandidateMeta
  spill : Nat → CandidateMeta
  stores : List (Nat × Nat)

/- Where a thread is. -/
inductive Phase where
  | reading
  | looping
  | finished
deriving DecidableEq, Repr

/- The registers of one thread; `index` is its loop variable. -/
structure ScatterThread where
  phase : Phase
  dirtyBase : Nat
  index : Nat

/- The threads of a block over its memory. -/
abbrev ScatterPool : Type :=
  Pool ScatterMemory ScatterThread

namespace ScatterLaunch

/- The body of the loop for one row. -/
def handleRow
    (launch : ScatterLaunch)
    (memory : ScatterMemory)
    (thread : ScatterThread) : ScatterMemory :=
  let candidate :=
    launch.partitionVal (launch.sourceBase + thread.index)
  if thread.index < launch.writeLimit then
    { memory with
      survivors :=
        Function.update memory.survivors
          (launch.physicalShard * launch.shardCapacity +
            thread.dirtyBase + thread.index) candidate
      stores :=
        memory.stores ++
          [(thread.index, thread.dirtyBase + thread.index)] }
  else
    let spillIdx :=
      launch.spillBase + thread.index - launch.writeLimit
    if launch.bufferCount ≤ 1 ∧
        spillIdx < launch.globalSpillCapacity then
      { memory with
        spill := Function.update memory.spill spillIdx candidate }
    else
      memory

/-
  One step of a thread: it reads the counter, writes one row,
  or ends. Thread 0 raises the counter at its own end.
-/
def stepScatter
    (launch : ScatterLaunch)
    (tid : Nat)
    (memory : ScatterMemory)
    (thread : ScatterThread) :
    ScatterMemory × ScatterThread :=
  if tid < launch.blockDim then
    match thread.phase with
    | .reading =>
        (memory,
          { phase := .looping
            dirtyBase := launch.cleanCount + memory.dirtyCount
            index := tid })
    | .looping =>
        if thread.index < launch.rawCount then
          (launch.handleRow memory thread,
            { thread with
              index := thread.index + launch.blockDim })
        else if tid = 0 then
          ({ memory with
              dirtyCount :=
                memory.dirtyCount + launch.writeLimit },
            { thread with phase := .finished })
        else
          (memory, { thread with phase := .finished })
    | .finished => (memory, thread)
  else
    (memory, thread)

/- Before any thread has moved. -/
def start
    (launch : ScatterLaunch)
    (survivors spill : Nat → CandidateMeta) : ScatterPool where
  shared :=
    { dirtyCount := launch.dirtyCount
      survivors := survivors
      spill := spill
      stores := [] }
  threads := fun _ =>
    { phase := .reading
      dirtyBase := 0
      index := 0 }

/- The block has ended. -/
def Complete (launch : ScatterLaunch) (pool : ScatterPool) : Prop :=
  ∀ tid < launch.blockDim, (pool.threads tid).phase = .finished

end ScatterLaunch

open ScatterLaunch

----------------
-- What A Step Does
----------------

/- The cases of a step of one thread. -/
inductive Move
    (launch : ScatterLaunch)
    (tid : Nat)
    (memory : ScatterMemory)
    (thread : ScatterThread) :
    ScatterMemory → ScatterThread → Prop where
  | read
      (hInside : tid < launch.blockDim)
      (hPhase : thread.phase = .reading) :
      Move launch tid memory thread memory
        { phase := .looping
          dirtyBase := launch.cleanCount + memory.dirtyCount
          index := tid }
  | store
      (hInside : tid < launch.blockDim)
      (hPhase : thread.phase = .looping)
      (hLimit : thread.index < launch.writeLimit) :
      Move launch tid memory thread
        { memory with
          survivors :=
            Function.update memory.survivors
              (launch.physicalShard * launch.shardCapacity +
                thread.dirtyBase + thread.index)
              (launch.partitionVal
                (launch.sourceBase + thread.index))
          stores :=
            memory.stores ++
              [(thread.index, thread.dirtyBase + thread.index)] }
        { phase := .looping
          dirtyBase := thread.dirtyBase
          index := thread.index + launch.blockDim }
  | pass
      (spill : Nat → CandidateMeta)
      (hInside : tid < launch.blockDim)
      (hPhase : thread.phase = .looping)
      (hLimit : launch.writeLimit ≤ thread.index)
      (hRow : thread.index < launch.rawCount) :
      Move launch tid memory thread
        { memory with spill := spill }
        { phase := .looping
          dirtyBase := thread.dirtyBase
          index := thread.index + launch.blockDim }
  | raise
      (hInside : tid < launch.blockDim)
      (hPhase : thread.phase = .looping)
      (hRow : launch.rawCount ≤ thread.index)
      (hZero : tid = 0) :
      Move launch tid memory thread
        { memory with
          dirtyCount := memory.dirtyCount + launch.writeLimit }
        { thread with phase := .finished }
  | finish
      (hInside : tid < launch.blockDim)
      (hPhase : thread.phase = .looping)
      (hRow : launch.rawCount ≤ thread.index)
      (hOther : tid ≠ 0) :
      Move launch tid memory thread memory
        { thread with phase := .finished }
  | idle
      (hIdle :
        tid < launch.blockDim → thread.phase = .finished) :
      Move launch tid memory thread memory thread

theorem stepScatter_move
    (launch : ScatterLaunch)
    (tid : Nat)
    (memory : ScatterMemory)
    (thread : ScatterThread) :
    Move launch tid memory thread
      (launch.stepScatter tid memory thread).1
      (launch.stepScatter tid memory thread).2 := by
  unfold stepScatter
  by_cases hInside : tid < launch.blockDim
  · rw [if_pos hInside]
    cases hPhase : thread.phase with
    | reading => exact Move.read hInside hPhase
    | looping =>
        dsimp only
        by_cases hRow : thread.index < launch.rawCount
        · rw [if_pos hRow]
          unfold handleRow
          by_cases hLimit : thread.index < launch.writeLimit
          · rw [if_pos hLimit]
            exact Move.store hInside hPhase hLimit
          · have hPassed := Nat.le_of_not_lt hLimit
            rw [if_neg hLimit]
            dsimp only
            split
            · exact Move.pass _ hInside hPhase hPassed hRow
            · exact
                Move.pass memory.spill hInside hPhase hPassed
                  hRow
        · rw [if_neg hRow]
          have hEnd := Nat.le_of_not_lt hRow
          by_cases hZero : tid = 0
          · rw [if_pos hZero]
            exact Move.raise hInside hPhase hEnd hZero
          · rw [if_neg hZero]
            exact Move.finish hInside hPhase hEnd hZero
    | finished => exact Move.idle fun _ => hPhase
  · rw [if_neg hInside]
    exact Move.idle fun hLt => absurd hLt hInside

----------------
-- Every Run
----------------

/- The thread has read the counts of the bank. -/
def HasRead (pool : ScatterPool) (tid : Nat) : Prop :=
  (pool.threads tid).phase ≠ .reading

variable {pool : ScatterPool}

theorem hasRead_of_phase
    (hPhase : (pool.threads tid).phase = .looping) :
    HasRead pool tid := by
  unfold HasRead
  rw [hPhase]
  exact Phase.noConfusion

/- The thread of a row is past it. -/
def Visited
    (launch : ScatterLaunch)
    (pool : ScatterPool)
    (row : Nat) : Prop :=
  HasRead pool (row % launch.blockDim) ∧
    row < (pool.threads (row % launch.blockDim)).index

/- What holds of every pool that a run reaches. -/
structure Sound
    (launch : ScatterLaunch)
    (pool : ScatterPool) : Prop where
  counter :
    pool.shared.dirtyCount =
      launch.dirtyCount +
        if (pool.threads 0).phase = .finished then
          launch.writeLimit
        else
          0
  own :
    ∀ tid < launch.blockDim, HasRead pool tid →
      (pool.threads tid).index % launch.blockDim = tid
  through :
    ∀ tid < launch.blockDim,
      (pool.threads tid).phase = .finished →
      launch.rawCount ≤ (pool.threads tid).index
  stores :
    ∀ row position : Nat,
      (row, position) ∈ pool.shared.stores ↔
        row < launch.writeLimit ∧
          Visited launch pool row ∧
          position =
            (pool.threads (row % launch.blockDim)).dirtyBase +
              row
  once : pool.shared.stores.Nodup

theorem sound_start
    (launch : ScatterLaunch)
    (survivors spill : Nat → CandidateMeta) :
    Sound launch (launch.start survivors spill) where
  counter := rfl
  own tid _ hRead := absurd rfl hRead
  through tid _ hPhase := nomatch hPhase
  stores row position := by
    constructor
    · intro hMem
      cases hMem
    · intro hStored
      exact absurd rfl hStored.2.1.1
  once := List.nodup_nil

/- Two rows of one thread less than a round apart are one row. -/
theorem eq_of_mod_of_lt
    {row index blockDim : Nat}
    (hThread : row % blockDim = index % blockDim)
    (hGe : index ≤ row)
    (hLt : row < index + blockDim) :
    row = index := by
  have hDivides : blockDim ∣ row - index :=
    Nat.dvd_of_mod_eq_zero
      (Nat.sub_mod_eq_zero_of_mod_eq hThread)
  have hZero : row - index = 0 :=
    Nat.eq_zero_of_dvd_of_lt hDivides (by omega)
  omega

/- The pool after a move of one thread. -/
abbrev moved
    (pool : ScatterPool)
    (tid : Nat)
    (memory : ScatterMemory)
    (thread : ScatterThread) : ScatterPool where
  shared := memory
  threads := Function.update pool.threads tid thread

theorem threads_moved_self
    (pool : ScatterPool)
    (tid : Nat)
    (memory : ScatterMemory)
    (thread : ScatterThread) :
    (moved pool tid memory thread).threads tid = thread :=
  Function.update_self _ _ _

theorem threads_moved_of_ne
    {other : Nat}
    (memory : ScatterMemory)
    (thread : ScatterThread)
    (hNe : other ≠ tid) :
    (moved pool tid memory thread).threads other =
      pool.threads other :=
  Function.update_of_ne hNe _ _

variable {launch : ScatterLaunch}

theorem visited_moved_of_ne
    {row : Nat}
    (memory : ScatterMemory)
    (thread : ScatterThread)
    (hNe : row % launch.blockDim ≠ tid) :
    Visited launch (moved pool tid memory thread) row ↔
      Visited launch pool row := by
  unfold Visited HasRead
  rw [threads_moved_of_ne memory thread hNe]

theorem visited_moved_self
    {row : Nat}
    (pool : ScatterPool)
    (memory : ScatterMemory)
    (thread : ScatterThread) :
    Visited launch
        (moved pool (row % launch.blockDim) memory thread) row ↔
      thread.phase ≠ .reading ∧ row < thread.index := by
  unfold Visited HasRead
  rw [threads_moved_self]

variable {memory : ScatterMemory} {thread : ScatterThread}

/- A move that stores no row and passes none. -/
theorem Sound.quiet
    (hSound : Sound launch pool)
    (hInside : tid < launch.blockDim)
    (hStores : memory.stores = pool.shared.stores)
    (hBefore : HasRead pool tid)
    (hAfter : thread.phase ≠ .reading)
    (hBase : thread.dirtyBase = (pool.threads tid).dirtyBase)
    (hMod : thread.index % launch.blockDim = tid)
    (hIndex :
      ∀ row < launch.writeLimit,
        row % launch.blockDim = tid →
          (row < thread.index ↔
            row < (pool.threads tid).index))
    (row position : Nat) :
    (row, position) ∈ memory.stores ↔
      row < launch.writeLimit ∧
        Visited launch (moved pool tid memory thread) row ∧
        position =
          ((moved pool tid memory thread).threads
            (row % launch.blockDim)).dirtyBase + row := by
  rw [hStores, hSound.stores row position]
  by_cases hOwn : row % launch.blockDim = tid
  · subst hOwn
    rw [visited_moved_self]
    dsimp only [moved]
    rw [Function.update_self, hBase]
    unfold Visited
    constructor
    · intro hStored
      exact
        ⟨hStored.1,
          ⟨hAfter,
            (hIndex row hStored.1 rfl).mpr hStored.2.1.2⟩,
          hStored.2.2⟩
    · intro hStored
      exact
        ⟨hStored.1,
          ⟨hBefore,
            (hIndex row hStored.1 rfl).mp hStored.2.1.2⟩,
          hStored.2.2⟩
  · rw [visited_moved_of_ne memory thread hOwn]
    dsimp only [moved]
    rw [Function.update_of_ne hOwn]

/- A thread that keeps its place between running and finished. -/
theorem finished_moved_iff
    (memory : ScatterMemory)
    (hSame :
      thread.phase = .finished ↔
        (pool.threads tid).phase = .finished) :
    ((moved pool tid memory thread).threads 0).phase =
        .finished ↔
      (pool.threads 0).phase = .finished := by
  dsimp only [moved]
  by_cases hZero : 0 = tid
  · rw [← hZero, Function.update_self]
    rw [← hZero] at hSame
    exact hSame
  · rw [Function.update_of_ne hZero]

theorem Sound.counter_moved
    (hSound : Sound launch pool)
    (hDirty : memory.dirtyCount = pool.shared.dirtyCount)
    (hSame :
      thread.phase = .finished ↔
        (pool.threads tid).phase = .finished) :
    memory.dirtyCount =
      launch.dirtyCount +
        if ((moved pool tid memory thread).threads 0).phase =
            .finished then
          launch.writeLimit
        else
          0 := by
  rw [hDirty, hSound.counter]
  congr 1
  exact
    if_congr (finished_moved_iff memory hSame).symm rfl rfl

theorem Sound.own_moved
    (memory : ScatterMemory)
    (hSound : Sound launch pool)
    (hMod : thread.index % launch.blockDim = tid) :
    ∀ other < launch.blockDim,
      HasRead (moved pool tid memory thread) other →
      ((moved pool tid memory thread).threads other).index %
          launch.blockDim =
        other := by
  intro other hOther hRead
  unfold HasRead at hRead
  dsimp only [moved] at hRead ⊢
  by_cases hSelf : other = tid
  · rw [hSelf, Function.update_self]
    exact hMod
  · rw [Function.update_of_ne hSelf] at hRead ⊢
    exact hSound.own other hOther hRead

theorem Sound.through_moved
    (memory : ScatterMemory)
    (hSound : Sound launch pool)
    (hThrough :
      thread.phase = .finished →
        launch.rawCount ≤ thread.index) :
    ∀ other < launch.blockDim,
      ((moved pool tid memory thread).threads other).phase =
          .finished →
      launch.rawCount ≤
        ((moved pool tid memory thread).threads other).index := by
  intro other hOther hPhase
  dsimp only [moved] at hPhase ⊢
  by_cases hSelf : other = tid
  · rw [hSelf, Function.update_self] at hPhase ⊢
    exact hThrough hPhase
  · rw [Function.update_of_ne hSelf] at hPhase ⊢
    exact hSound.through other hOther hPhase

/- The first step of a thread visits no row. -/
theorem Sound.read
    (hSound : Sound launch pool)
    (hInside : tid < launch.blockDim)
    (hPhase : (pool.threads tid).phase = .reading) :
    Sound launch
      (moved pool tid pool.shared
        { phase := .looping
          dirtyBase := launch.cleanCount + pool.shared.dirtyCount
          index := tid }) where
  counter := hSound.counter_moved rfl (by simp [hPhase])
  own := hSound.own_moved _ (Nat.mod_eq_of_lt hInside)
  through := hSound.through_moved _ fun hEnd => nomatch hEnd
  stores row position := by
    rw [hSound.stores row position]
    by_cases hOwn : row % launch.blockDim = tid
    · subst hOwn
      rw [visited_moved_self]
      dsimp only
      constructor
      · intro hStored
        exact absurd hPhase hStored.2.1.1
      · intro hStored
        have hLe : row % launch.blockDim ≤ row :=
          Nat.mod_le _ _
        exact absurd hStored.2.1.2 (Nat.not_lt.mpr hLe)
    · rw [visited_moved_of_ne _ _ hOwn]
      dsimp only [moved]
      rw [Function.update_of_ne hOwn]
  once := hSound.once

/- A stored row is the next row of its thread. -/
theorem Sound.store
    (hSound : Sound launch pool)
    (hInside : tid < launch.blockDim)
    (hPhase : (pool.threads tid).phase = .looping)
    (hLimit : (pool.threads tid).index < launch.writeLimit)
    (hDirty : memory.dirtyCount = pool.shared.dirtyCount)
    (hStores :
      memory.stores =
        pool.shared.stores ++
          [((pool.threads tid).index,
            (pool.threads tid).dirtyBase +
              (pool.threads tid).index)]) :
    Sound launch
      (moved pool tid memory
        { phase := .looping
          dirtyBase := (pool.threads tid).dirtyBase
          index :=
            (pool.threads tid).index + launch.blockDim }) := by
  have hRead := hasRead_of_phase hPhase
  have hMod := hSound.own tid hInside hRead
  constructor
  case counter =>
    exact hSound.counter_moved hDirty (by simp [hPhase])
  case own =>
    refine hSound.own_moved _ ?_
    dsimp only
    rw [Nat.add_mod_right, hMod]
  case through =>
    exact hSound.through_moved _ fun hEnd => nomatch hEnd
  case stores =>
    intro row position
    rw [hStores, List.mem_append, List.mem_singleton,
      hSound.stores row position]
    by_cases hOwn : row % launch.blockDim = tid
    · subst hOwn
      rw [visited_moved_self]
      dsimp only [moved]
      rw [Function.update_self]
      dsimp only
      constructor
      · intro hStored
        rcases hStored with ⟨hRow, hVisited, hPosition⟩ | hNew
        · have hPast := hVisited.2
          exact
            ⟨hRow, ⟨Phase.noConfusion, by omega⟩, hPosition⟩
        · rcases Prod.mk.inj hNew with ⟨hRow, hPosition⟩
          have hPositive := launch.blockDim_pos
          exact
            ⟨by omega, ⟨Phase.noConfusion, by omega⟩,
              by omega⟩
      · intro hStored
        rcases hStored with ⟨hRow, ⟨_, hPast⟩, hPosition⟩
        by_cases hOld :
            row < (pool.threads (row % launch.blockDim)).index
        · exact Or.inl ⟨hRow, ⟨hRead, hOld⟩, hPosition⟩
        · have hSame :=
            eq_of_mod_of_lt hMod.symm (Nat.le_of_not_lt hOld)
              hPast
          exact
            Or.inr (Prod.ext hSame (by dsimp only; omega))
    · have hNew :
          (row, position) ≠
            ((pool.threads tid).index,
              (pool.threads tid).dirtyBase +
                (pool.threads tid).index) := by
        intro hEq
        refine hOwn ?_
        rw [(Prod.mk.inj hEq).1]
        exact hMod
      rw [visited_moved_of_ne _ _ hOwn]
      dsimp only [moved]
      rw [Function.update_of_ne hOwn]
      exact or_iff_left hNew
  case once =>
    dsimp only [moved]
    rw [hStores]
    refine List.nodup_append.mpr
      ⟨hSound.once, List.nodup_singleton _, ?_⟩
    intro old hOld new hNew hSame
    rw [hSame, List.mem_singleton.mp hNew,
      hSound.stores] at hOld
    have hPast := hOld.2.1.2
    rw [hMod] at hPast
    exact absurd hPast (lt_irrefl _)

/- Every step of a run keeps the invariant. -/
theorem Sound.move
    (hSound : Sound launch pool)
    (hMove :
      Move launch tid pool.shared (pool.threads tid) memory
        thread) :
    Sound launch (moved pool tid memory thread) := by
  cases hMove with
  | read hInside hPhase => exact hSound.read hInside hPhase
  | store hInside hPhase hLimit =>
      exact hSound.store hInside hPhase hLimit rfl rfl
  | pass spill hInside hPhase hLimit hRow =>
      have hRead := hasRead_of_phase hPhase
      have hMod := hSound.own tid hInside hRead
      have hNext :
          ((pool.threads tid).index + launch.blockDim) %
              launch.blockDim =
            tid := by
        rw [Nat.add_mod_right, hMod]
      exact
        { counter :=
            hSound.counter_moved rfl (by simp [hPhase])
          own := hSound.own_moved _ hNext
          through :=
            hSound.through_moved _ fun hEnd => nomatch hEnd
          stores :=
            hSound.quiet hInside rfl hRead Phase.noConfusion rfl
              hNext (by dsimp only; omega)
          once := hSound.once }
  | raise hInside hPhase hRow hZero =>
      have hRead := hasRead_of_phase hPhase
      have hMod := hSound.own tid hInside hRead
      refine
        { counter := ?_
          own := hSound.own_moved _ hMod
          through := hSound.through_moved _ fun _ => hRow
          stores :=
            hSound.quiet hInside rfl hRead Phase.noConfusion rfl
              hMod fun _ _ _ => Iff.rfl
          once := hSound.once }
      subst hZero
      have hCounter := hSound.counter
      rw [hPhase, if_neg Phase.noConfusion] at hCounter
      rw [if_pos (by rw [threads_moved_self])]
      dsimp only
      rw [hCounter, Nat.add_zero]
  | finish hInside hPhase hRow hOther =>
      have hRead := hasRead_of_phase hPhase
      have hMod := hSound.own tid hInside hRead
      refine
        { counter := ?_
          own := hSound.own_moved _ hMod
          through := hSound.through_moved _ fun _ => hRow
          stores :=
            hSound.quiet hInside rfl hRead Phase.noConfusion rfl
              hMod fun _ _ _ => Iff.rfl
          once := hSound.once }
      rw [threads_moved_of_ne _ _ (Ne.symm hOther)]
      exact hSound.counter
  | idle hIdle =>
      unfold moved
      rw [Function.update_eq_self]
      exact hSound

theorem sound_run
    (launch : ScatterLaunch)
    (survivors spill : Nat → CandidateMeta)
    (schedule : List Nat) :
    Sound launch
      (run launch.stepScatter (launch.start survivors spill)
        schedule) :=
  run_invariant
    (fun _ _ hSound => hSound.move (stepScatter_move _ _ _ _))
    (sound_start launch survivors spill) schedule

----------------
-- The Sequential Result
----------------

/- The first free position of the bank, among all survivors. -/
def ScatterLaunch.bankBase (launch : ScatterLaunch) : Nat :=
  launch.physicalShard * launch.shardCapacity +
    (launch.cleanCount + launch.dirtyCount)

/- Every row within the limit is stored behind the bank's rows. -/
def RowsInPlace
    (launch : ScatterLaunch)
    (memory : ScatterMemory) : Prop :=
  ∀ row position : Nat,
    (row, position) ∈ memory.stores ↔
      row < launch.writeLimit ∧
        position = launch.cleanCount + launch.dirtyCount + row

theorem rowsInPlace_iff
    (hOnce : memory.stores.Nodup) :
    RowsInPlace launch memory ↔
      memory.stores.Perm
        ((List.range launch.writeLimit).map fun row =>
          (row, launch.cleanCount + launch.dirtyCount + row)) := by
  have hRows :
      ((List.range launch.writeLimit).map fun row =>
        (row,
          launch.cleanCount + launch.dirtyCount + row)).Nodup :=
    List.nodup_range.map fun row other hSame =>
      (Prod.mk.inj hSame).1
  rw [List.perm_ext_iff_of_nodup hOnce hRows]
  constructor
  · intro hPlace store
    rw [hPlace store.1 store.2, List.mem_map]
    constructor
    · intro hStore
      exact
        ⟨store.1, List.mem_range.mpr hStore.1,
          Prod.ext rfl hStore.2.symm⟩
    · intro hRow
      rcases hRow with ⟨row, hRow, hStore⟩
      rw [← hStore]
      exact ⟨List.mem_range.mp hRow, rfl⟩
  · intro hSame row position
    rw [hSame (row, position), List.mem_map]
    constructor
    · intro hRow
      rcases hRow with ⟨other, hOther, hStore⟩
      rcases Prod.mk.inj hStore with ⟨hRow, hPosition⟩
      subst hRow
      exact ⟨List.mem_range.mp hOther, hPosition.symm⟩
    · intro hStore
      exact
        ⟨row, List.mem_range.mpr hStore.1,
          Prod.ext rfl hStore.2.symm⟩

/- What a scatter of the rows one after the other leaves. -/
structure Scattered
    (launch : ScatterLaunch)
    (survivors : Nat → CandidateMeta)
    (memory : ScatterMemory) : Prop where
  rows : RowsInPlace launch memory
  once : memory.stores.Nodup
  inside :
    ∀ store ∈ memory.stores,
      launch.cleanCount + launch.dirtyCount ≤ store.2 ∧
        store.2 < launch.shardCapacity
  stored :
    ∀ row < launch.writeLimit,
      memory.survivors (launch.bankBase + row) =
        launch.partitionVal (launch.sourceBase + row)
  kept :
    ∀ i, (∀ row < launch.writeLimit, i ≠ launch.bankBase + row) →
      memory.survivors i = survivors i
  dirty :
    memory.dirtyCount = launch.dirtyCount + launch.writeLimit

/-
  Thread zero raises the dirty count only where every thread
  that stores a row has read it.
-/
def RaisesLast
    (launch : ScatterLaunch)
    (pool : ScatterPool)
    (tid : Nat) : Prop :=
  tid = 0 →
    (pool.threads 0).phase = .looping →
    launch.rawCount ≤ (pool.threads 0).index →
    ∀ other < launch.blockDim, other < launch.writeLimit →
      HasRead pool other

/-
  The order that makes a block write right: every thread read
  the counter before it was raised.
-/
structure Ordered
    (launch : ScatterLaunch)
    (survivors : Nat → CandidateMeta)
    (pool : ScatterPool) : Prop where
  sound : Sound launch pool
  base :
    ∀ tid < launch.blockDim, tid < launch.writeLimit →
      HasRead pool tid →
      (pool.threads tid).dirtyBase =
        launch.cleanCount + launch.dirtyCount
  read :
    (pool.threads 0).phase = .finished →
      ∀ tid < launch.blockDim, tid < launch.writeLimit →
        HasRead pool tid
  stored :
    ∀ row < launch.writeLimit, Visited launch pool row →
      pool.shared.survivors (launch.bankBase + row) =
        launch.partitionVal (launch.sourceBase + row)
  kept :
    ∀ i, (∀ row < launch.writeLimit, i ≠ launch.bankBase + row) →
      pool.shared.survivors i = survivors i

theorem ordered_start
    (launch : ScatterLaunch)
    (survivors spill : Nat → CandidateMeta) :
    Ordered launch survivors (launch.start survivors spill) where
  sound := sound_start launch survivors spill
  base _ _ _ hRead := absurd rfl hRead
  read hPhase := nomatch hPhase
  stored _ _ hVisited := absurd rfl hVisited.1
  kept _ _ := rfl

/- A thread that runs on has read, and so have the others. -/
theorem Ordered.read_moved
    (memory : ScatterMemory)
    (hOrdered : Ordered launch survivors pool)
    (hAfter : thread.phase ≠ .reading)
    (hRaise :
      tid = 0 → thread.phase = .finished →
        ∀ other < launch.blockDim, other < launch.writeLimit →
          HasRead pool other) :
    ((moved pool tid memory thread).threads 0).phase =
        .finished →
      ∀ other < launch.blockDim, other < launch.writeLimit →
        HasRead (moved pool tid memory thread) other := by
  intro hPhase other hOther hStores
  unfold HasRead
  by_cases hSelf : other = tid
  · rw [hSelf, threads_moved_self]
    exact hAfter
  · rw [threads_moved_of_ne memory thread hSelf]
    by_cases hZero : tid = 0
    · subst hZero
      rw [threads_moved_self] at hPhase
      exact hRaise rfl hPhase other hOther hStores
    · rw [threads_moved_of_ne memory thread
        (Ne.symm hZero)] at hPhase
      exact hOrdered.read hPhase other hOther hStores

theorem Ordered.base_moved
    (memory : ScatterMemory)
    (hOrdered : Ordered launch survivors pool)
    (hBase :
      tid < launch.writeLimit →
        thread.dirtyBase =
          launch.cleanCount + launch.dirtyCount) :
    ∀ other < launch.blockDim, other < launch.writeLimit →
      HasRead (moved pool tid memory thread) other →
      ((moved pool tid memory thread).threads other).dirtyBase =
        launch.cleanCount + launch.dirtyCount := by
  intro other hOther hStores hRead
  unfold HasRead at hRead
  by_cases hSelf : other = tid
  · rw [hSelf] at hStores ⊢
    rw [threads_moved_self]
    exact hBase hStores
  · rw [threads_moved_of_ne memory thread hSelf] at hRead ⊢
    exact hOrdered.base other hOther hStores hRead

/- A move that passes no row within the limit. -/
theorem Ordered.stored_moved
    (hOrdered : Ordered launch survivors pool)
    (hSurvivors : memory.survivors = pool.shared.survivors)
    (hPassed :
      ∀ row < launch.writeLimit,
        row % launch.blockDim = tid → row < thread.index →
          Visited launch pool row)
    (row : Nat)
    (hRow : row < launch.writeLimit)
    (hVisited :
      Visited launch (moved pool tid memory thread) row) :
    memory.survivors (launch.bankBase + row) =
      launch.partitionVal (launch.sourceBase + row) := by
  rw [hSurvivors]
  refine hOrdered.stored row hRow ?_
  by_cases hOwn : row % launch.blockDim = tid
  · have hIndex : row < thread.index := by
      have hBoth := hVisited.2
      rw [hOwn, threads_moved_self] at hBoth
      exact hBoth
    exact hPassed row hRow hOwn hIndex
  · exact (visited_moved_of_ne memory thread hOwn).mp hVisited

/- Every guarded step keeps the bases and the stored rows. -/
theorem Ordered.move
    (hOrdered : Ordered launch survivors pool)
    (hGuard : RaisesLast launch pool tid)
    (hMove :
      Move launch tid pool.shared (pool.threads tid) memory
        thread) :
    Ordered launch survivors (moved pool tid memory thread) := by
  have hSound := hOrdered.sound.move hMove
  cases hMove with
  | read hInside hPhase =>
      have hBase :
          tid < launch.writeLimit →
            launch.cleanCount + pool.shared.dirtyCount =
              launch.cleanCount + launch.dirtyCount := by
        intro hStores
        have hBefore : (pool.threads 0).phase ≠ .finished :=
          fun hEnd =>
            hOrdered.read hEnd tid hInside hStores hPhase
        rw [hOrdered.sound.counter, if_neg hBefore, Nat.add_zero]
      refine
        { sound := hSound
          base := hOrdered.base_moved _ hBase
          read :=
            hOrdered.read_moved _ Phase.noConfusion
              fun _ hEnd => nomatch hEnd
          stored := hOrdered.stored_moved rfl ?_
          kept := hOrdered.kept }
      intro row _ hOwn hIndex
      have hLe := Nat.mod_le row launch.blockDim
      dsimp only at hIndex
      omega
  | store hInside hPhase hLimit =>
      have hRead := hasRead_of_phase hPhase
      have hMod := hOrdered.sound.own tid hInside hRead
      have hLe := Nat.mod_le (pool.threads tid).index launch.blockDim
      have hBase :=
        hOrdered.base tid hInside (by omega) hRead
      have hPlace :
          launch.physicalShard * launch.shardCapacity +
              (pool.threads tid).dirtyBase +
              (pool.threads tid).index =
            launch.bankBase + (pool.threads tid).index := by
        rw [hBase, ScatterLaunch.bankBase]
      refine
        { sound := hSound
          base := hOrdered.base_moved _ fun _ => hBase
          read :=
            hOrdered.read_moved _ Phase.noConfusion
              fun _ hEnd => nomatch hEnd
          stored := ?_
          kept := ?_ }
      · intro row hRow hVisited
        dsimp only [moved]
        rw [hPlace]
        by_cases hSame : row = (pool.threads tid).index
        · rw [hSame, Function.update_self]
        · rw [Function.update_of_ne (by omega)]
          refine hOrdered.stored row hRow ?_
          by_cases hOwn : row % launch.blockDim = tid
          · have hBoth := hVisited.2
            rw [hOwn, threads_moved_self] at hBoth
            dsimp only at hBoth
            unfold Visited
            rw [hOwn]
            refine ⟨hRead, ?_⟩
            by_contra hNot
            exact
              hSame
                (eq_of_mod_of_lt (hOwn.trans hMod.symm)
                  (Nat.le_of_not_lt hNot) hBoth)
          · exact (visited_moved_of_ne _ _ hOwn).mp hVisited
      · intro i hFree
        dsimp only [moved]
        rw [hPlace,
          Function.update_of_ne (hFree _ hLimit)]
        exact hOrdered.kept i hFree
  | pass spill hInside hPhase hLimit hRow =>
      have hRead := hasRead_of_phase hPhase
      refine
        { sound := hSound
          base :=
            hOrdered.base_moved _ fun hStores =>
              hOrdered.base tid hInside hStores hRead
          read :=
            hOrdered.read_moved _ Phase.noConfusion
              fun _ hEnd => nomatch hEnd
          stored := hOrdered.stored_moved rfl ?_
          kept := hOrdered.kept }
      intro row hBelow hOwn _
      unfold Visited
      rw [hOwn]
      exact ⟨hRead, hBelow.trans_le hLimit⟩
  | raise hInside hPhase hRow hZero =>
      have hRead := hasRead_of_phase hPhase
      refine
        { sound := hSound
          base :=
            hOrdered.base_moved _ fun hStores =>
              hOrdered.base tid hInside hStores hRead
          read :=
            hOrdered.read_moved _ Phase.noConfusion
              fun hSelf _ =>
                hGuard hSelf (hSelf ▸ hPhase) (hSelf ▸ hRow)
          stored := hOrdered.stored_moved rfl ?_
          kept := hOrdered.kept }
      intro row _ hOwn hIndex
      unfold Visited
      rw [hOwn]
      exact ⟨hRead, hIndex⟩
  | finish hInside hPhase hRow hOther =>
      have hRead := hasRead_of_phase hPhase
      refine
        { sound := hSound
          base :=
            hOrdered.base_moved _ fun hStores =>
              hOrdered.base tid hInside hStores hRead
          read :=
            hOrdered.read_moved _ Phase.noConfusion
              fun hSelf => absurd hSelf hOther
          stored := hOrdered.stored_moved rfl ?_
          kept := hOrdered.kept }
      intro row _ hOwn hIndex
      unfold Visited
      rw [hOwn]
      exact ⟨hRead, hIndex⟩
  | idle hIdle =>
      unfold moved
      rw [Function.update_eq_self]
      exact hOrdered

/- Where every block thread has ended, every row was visited. -/
theorem Sound.visited_of_complete
    {row : Nat}
    (hSound : Sound launch pool)
    (hComplete : launch.Complete pool)
    (hRow : row < launch.writeLimit) :
    Visited launch pool row := by
  have hInside := Nat.mod_lt row launch.blockDim_pos
  have hPhase := hComplete _ hInside
  have hThrough := hSound.through _ hInside hPhase
  have hLimit := launch.limit_le
  refine ⟨?_, by omega⟩
  unfold HasRead
  rw [hPhase]
  exact Phase.noConfusion

theorem Ordered.scattered
    (hOrdered : Ordered launch survivors pool)
    (hComplete : launch.Complete pool) :
    Scattered launch survivors pool.shared := by
  have hSound := hOrdered.sound
  have hRows : RowsInPlace launch pool.shared := by
    intro row position
    rw [hSound.stores row position]
    refine and_congr_right fun hRow => ?_
    have hVisited := hSound.visited_of_complete hComplete hRow
    have hLe := Nat.mod_le row launch.blockDim
    have hBase :=
      hOrdered.base _ (Nat.mod_lt row launch.blockDim_pos)
        (by omega) hVisited.1
    rw [hBase]
    exact and_iff_right hVisited
  refine
    { rows := hRows
      once := hSound.once
      inside := ?_
      stored := ?_
      kept := hOrdered.kept
      dirty := ?_ }
  · intro store hStore
    rcases (hRows store.1 store.2).mp hStore with
      ⟨hRow, hPosition⟩
    have hRoom := launch.room store.1 hRow
    omega
  · intro row hRow
    exact
      hOrdered.stored row hRow
        (hSound.visited_of_complete hComplete hRow)
  · rw [hSound.counter,
      if_pos (hComplete 0 launch.blockDim_pos)]

----------------
-- A Thread That Reads Late
----------------

/- The dirty count is raised, and the thread did not read before. -/
structure Late
    (launch : ScatterLaunch)
    (tid : Nat)
    (pool : ScatterPool) : Prop where
  sound : Sound launch pool
  raised : (pool.threads 0).phase = .finished
  late :
    HasRead pool tid →
      (pool.threads tid).dirtyBase =
        launch.cleanCount + launch.dirtyCount + launch.writeLimit

/- A move leaves the base alone unless it is the read. -/
theorem Late.move
    {late : Nat}
    (hLate : Late launch late pool)
    (hMove :
      Move launch tid pool.shared (pool.threads tid) memory
        thread) :
    Late launch late (moved pool tid memory thread) := by
  have hSound := hLate.sound.move hMove
  have hKeeps :
      (pool.threads tid).phase = .looping →
        thread.dirtyBase = (pool.threads tid).dirtyBase →
        Late launch late (moved pool tid memory thread) := by
    intro hPhase hBase
    have hOther : 0 ≠ tid := by
      intro hZero
      rw [← hZero, hLate.raised] at hPhase
      cases hPhase
    refine ⟨hSound, ?_, ?_⟩
    · rw [threads_moved_of_ne memory thread hOther]
      exact hLate.raised
    · intro hRead
      unfold HasRead at hRead
      by_cases hSelf : late = tid
      · subst hSelf
        rw [threads_moved_self, hBase]
        exact hLate.late (hasRead_of_phase hPhase)
      · rw [threads_moved_of_ne memory thread hSelf] at hRead ⊢
        exact hLate.late hRead
  cases hMove with
  | read hInside hPhase =>
      have hOther : 0 ≠ tid := by
        intro hZero
        rw [← hZero, hLate.raised] at hPhase
        cases hPhase
      refine ⟨hSound, ?_, ?_⟩
      · rw [threads_moved_of_ne _ _ hOther]
        exact hLate.raised
      · intro hRead
        unfold HasRead at hRead
        by_cases hSelf : late = tid
        · rw [hSelf, threads_moved_self, hLate.sound.counter,
            if_pos hLate.raised]
          dsimp only
          omega
        · rw [threads_moved_of_ne _ _ hSelf] at hRead ⊢
          exact hLate.late hRead
  | store hInside hPhase hLimit => exact hKeeps hPhase rfl
  | pass spill hInside hPhase hLimit hRow =>
      exact hKeeps hPhase rfl
  | raise hInside hPhase hRow hZero => exact hKeeps hPhase rfl
  | finish hInside hPhase hRow hOther => exact hKeeps hPhase rfl
  | idle hIdle =>
      unfold moved
      rw [Function.update_eq_self]
      exact hLate

/- A late thread stores its first row behind the group. -/
theorem Late.not_rows
    (hLate : Late launch tid pool)
    (hInside : tid < launch.blockDim)
    (hStores : tid < launch.writeLimit)
    (hComplete : launch.Complete pool) :
    ¬ RowsInPlace launch pool.shared := by
  intro hRows
  have hSound := hLate.sound
  have hVisited := hSound.visited_of_complete hComplete hStores
  have hOwn := Nat.mod_eq_of_lt hInside
  have hMem :=
    (hSound.stores tid
      ((pool.threads (tid % launch.blockDim)).dirtyBase +
        tid)).mpr ⟨hStores, hVisited, rfl⟩
  have hRead := hVisited.1
  rw [hOwn] at hRead hMem
  have hPlace := ((hRows _ _).mp hMem).2
  rw [hLate.late hRead] at hPlace
  omega

/- A run that breaks the order leaves a thread late. -/
theorem late_of_not_guarded
    (hSound : Sound launch pool)
    (hNot :
      ¬ Guarded launch.stepScatter (RaisesLast launch) pool
        schedule) :
    ∃ tid < launch.blockDim,
      tid < launch.writeLimit ∧
        Late launch tid
          (run launch.stepScatter pool schedule) := by
  have hMove :
      ∀ pool tid, Sound launch pool →
        Sound launch (stepAt launch.stepScatter pool tid) :=
    fun _ _ hSound => hSound.move (stepScatter_move _ _ _ _)
  rcases exists_of_not_guarded hNot with
    ⟨earlier, tid, later, hSplit, hBroken⟩
  have hBefore : Sound launch _ :=
    run_invariant hMove hSound earlier
  let before := run launch.stepScatter pool earlier
  unfold RaisesLast at hBroken
  push Not at hBroken
  rcases hBroken with
    ⟨hZero, hPhase, hEnd, other, hInside, hStores, hUnread⟩
  subst hZero
  have hReading : (before.threads other).phase = .reading :=
    not_not.mp hUnread
  have hOther : other ≠ 0 := by
    intro hSelf
    rw [hSelf, hPhase] at hReading
    cases hReading
  have hAfter :
      Late launch other
        (stepAt launch.stepScatter before 0) := by
    refine ⟨hMove _ _ hBefore, ?_, ?_⟩
    · rw [threads_stepAt_self, stepScatter,
        if_pos launch.blockDim_pos, hPhase]
      dsimp only
      rw [if_neg (Nat.not_lt.mpr hEnd), if_pos rfl]
    · intro hRead
      unfold HasRead at hRead
      rw [threads_stepAt_of_ne before hOther] at hRead
      exact absurd hReading hRead
  refine ⟨other, hInside, hStores, ?_⟩
  rw [hSplit, run_append]
  exact
    run_invariant
      (fun _ _ hLate => hLate.move (stepScatter_move _ _ _ _))
      hAfter later

----------------
-- One Thread After The Other
----------------

theorem phase_run_of_finished
    (hFinished : (pool.threads tid).phase = .finished)
    (schedule : List Nat) :
    ((run launch.stepScatter pool schedule).threads tid).phase =
      .finished := by
  let Finished (pool : ScatterPool) : Prop :=
    (pool.threads tid).phase = .finished
  refine run_invariant (J := Finished) ?_ hFinished schedule
  intro pool other hFinished
  change ((stepAt _ pool other).threads tid).phase = .finished
  by_cases hSelf : tid = other
  · subst hSelf
    have hPhase : (pool.threads tid).phase = .finished :=
      hFinished
    rw [threads_stepAt_self, stepScatter, hPhase]
    split
    · exact hPhase
    · exact hPhase
  · rw [threads_stepAt_of_ne pool hSelf]
    exact hFinished

/- A thread alone ends its loop. -/
theorem loop_finishes
    (hInside : tid < launch.blockDim)
    (count : Nat) :
    ∀ pool : ScatterPool,
      (pool.threads tid).phase = .looping →
      launch.rawCount ≤ (pool.threads tid).index + count →
      ((run launch.stepScatter pool
          (List.replicate (count + 1) tid)).threads tid).phase =
        .finished := by
  induction count with
  | zero =>
      intro pool hPhase hEnd
      change
        ((stepAt launch.stepScatter pool tid).threads tid).phase =
          .finished
      rw [Nat.add_zero] at hEnd
      rw [threads_stepAt_self, stepScatter, if_pos hInside, hPhase]
      dsimp only
      rw [if_neg (Nat.not_lt.mpr hEnd)]
      split
      · rfl
      · rfl
  | succ count ih =>
      intro pool hPhase hEnd
      rw [List.replicate_succ, run, List.foldl_cons]
      have hThread :
          (stepAt launch.stepScatter pool tid).threads tid =
            (launch.stepScatter tid pool.shared
              (pool.threads tid)).2 :=
        threads_stepAt_self pool tid
      rw [stepScatter, if_pos hInside, hPhase] at hThread
      dsimp only at hThread
      by_cases hRow :
          (pool.threads tid).index < launch.rawCount
      · rw [if_pos hRow] at hThread
        have hPositive := launch.blockDim_pos
        refine ih _ (by rw [hThread]) ?_
        rw [hThread]
        dsimp only
        omega
      · rw [if_neg hRow] at hThread
        refine phase_run_of_finished ?_ _
        rw [hThread]
        split
        · rfl
        · rfl

/- Steps enough for any thread. -/
def ownSteps (launch : ScatterLaunch) (tid : Nat) : List Nat :=
  List.replicate (launch.rawCount + 2) tid

theorem ownSteps_finishes
    (hInside : tid < launch.blockDim)
    (pool : ScatterPool) :
    ((run launch.stepScatter pool
        (ownSteps launch tid)).threads tid).phase =
      .finished := by
  cases hPhase : (pool.threads tid).phase with
  | reading =>
      rw [ownSteps, List.replicate_succ, run, List.foldl_cons]
      refine loop_finishes hInside launch.rawCount _ ?_ ?_
      · rw [threads_stepAt_self, stepScatter, if_pos hInside,
          hPhase]
      · rw [threads_stepAt_self, stepScatter, if_pos hInside,
          hPhase]
        exact Nat.le_add_left _ _
  | looping =>
      exact
        loop_finishes hInside (launch.rawCount + 1) pool hPhase
          (by omega)
  | finished => exact phase_run_of_finished hPhase _

/- One thread after the other. -/
def sequential (launch : ScatterLaunch) : List Nat :=
  (List.range launch.blockDim).flatMap (ownSteps launch)

theorem run_flatMap_finishes
    {tids : List Nat}
    (hInside : ∀ tid ∈ tids, tid < launch.blockDim)
    (pool : ScatterPool) :
    ∀ tid ∈ tids,
      ((run launch.stepScatter pool
          (tids.flatMap (ownSteps launch))).threads tid).phase =
        .finished := by
  induction tids generalizing pool with
  | nil =>
      intro tid hMem
      cases hMem
  | cons first tids ih =>
      intro tid hMem
      rw [List.flatMap_cons, run_append]
      rcases List.mem_cons.mp hMem with hFirst | hRest
      · rw [hFirst]
        exact
          phase_run_of_finished
            (ownSteps_finishes (hInside first (by simp)) pool) _
      · exact
          ih
            (fun other hOther =>
              hInside other (List.mem_cons_of_mem _ hOther))
            _ tid hRest

theorem complete_sequential
    (launch : ScatterLaunch)
    (pool : ScatterPool) :
    launch.Complete
      (run launch.stepScatter pool (sequential launch)) :=
  fun tid hInside =>
    run_flatMap_finishes
      (fun _ hMem => List.mem_range.mp hMem) pool tid
      (List.mem_range.mpr hInside)

/- When the first thread runs alone at first, the second is late. -/
theorem late_sequential
    (launch : ScatterLaunch)
    (hThreads : 1 < launch.blockDim)
    (survivors spill : Nat → CandidateMeta) :
    Late launch 1
      (run launch.stepScatter (launch.start survivors spill)
        (sequential launch)) := by
  have hSplit :
      sequential launch =
        ownSteps launch 0 ++
          ((List.range (launch.blockDim - 1)).map
            Nat.succ).flatMap (ownSteps launch) := by
    have hRange :
        List.range launch.blockDim =
          0 :: (List.range (launch.blockDim - 1)).map Nat.succ := by
      rw [← List.range_succ_eq_map]
      congr 1
      omega
    rw [sequential, hRange, List.flatMap_cons]
  rw [hSplit, run_append]
  refine
    run_invariant
      (fun _ _ hLate => hLate.move (stepScatter_move _ _ _ _))
      ⟨sound_run launch survivors spill _,
        ownSteps_finishes launch.blockDim_pos _, ?_⟩ _
  intro hRead
  unfold HasRead at hRead
  rw [ownSteps, threads_run_alone _ _ (by decide)] at hRead
  exact absurd rfl hRead

----------------
-- The Orders Of A Block
----------------

/- The rows end up the same whichever order the threads take. -/
def Orderless (launch : ScatterLaunch) : Prop :=
  ∀ (survivors spill : Nat → CandidateMeta)
    (schedule : List Nat),
    launch.Complete
        (run launch.stepScatter (launch.start survivors spill)
          schedule) →
      Scattered launch survivors
        (run launch.stepScatter (launch.start survivors spill)
          schedule).shared

/- Rows in their places tell that the dirty count was raised last. -/
theorem guarded_of_rowsInPlace
    {spill : Nat → CandidateMeta}
    (hComplete :
      launch.Complete
        (run launch.stepScatter (launch.start survivors spill)
          schedule))
    (hRows :
      RowsInPlace launch
        (run launch.stepScatter (launch.start survivors spill)
          schedule).shared) :
    Guarded launch.stepScatter (RaisesLast launch)
      (launch.start survivors spill) schedule := by
  by_contra hNot
  rcases late_of_not_guarded
      (sound_start launch survivors spill) hNot with
    ⟨tid, hInside, hStores, hLate⟩
  exact hLate.not_rows hInside hStores hComplete hRows

theorem scattered_of_guarded
    {spill : Nat → CandidateMeta}
    (hComplete :
      launch.Complete
        (run launch.stepScatter (launch.start survivors spill)
          schedule))
    (hGuarded :
      Guarded launch.stepScatter (RaisesLast launch)
        (launch.start survivors spill) schedule) :
    Scattered launch survivors
      (run launch.stepScatter (launch.start survivors spill)
        schedule).shared := by
  have hOrdered :=
    run_of_guarded
      (fun _ _ hOrdered hGuard =>
        Ordered.move hOrdered hGuard (stepScatter_move _ _ _ _))
      (ordered_start launch survivors spill) hGuarded
  exact hOrdered.scattered hComplete

theorem scattered_iff_guarded
    (launch : ScatterLaunch)
    (survivors spill : Nat → CandidateMeta)
    (hComplete :
      launch.Complete
        (run launch.stepScatter (launch.start survivors spill)
          schedule)) :
    Scattered launch survivors
        (run launch.stepScatter (launch.start survivors spill)
          schedule).shared ↔
      Guarded launch.stepScatter (RaisesLast launch)
        (launch.start survivors spill) schedule :=
  ⟨fun hScattered =>
      guarded_of_rowsInPlace hComplete hScattered.rows,
    fun hGuarded => scattered_of_guarded hComplete hGuarded⟩

/-
  The block scatters its rows in every order exactly if one
  thread runs or one row is stored. In larger blocks the runs
  that do are those that raise the dirty count last.
-/
theorem scatter_orderless_iff (launch : ScatterLaunch) :
    (Orderless launch ↔
      launch.blockDim ≤ 1 ∨ launch.writeLimit ≤ 1) ∧
    ∀ (survivors spill : Nat → CandidateMeta)
      (schedule : List Nat),
      launch.Complete
          (run launch.stepScatter (launch.start survivors spill)
            schedule) →
        (Scattered launch survivors
            (run launch.stepScatter
              (launch.start survivors spill) schedule).shared ↔
          Guarded launch.stepScatter (RaisesLast launch)
            (launch.start survivors spill) schedule) := by
  refine ⟨⟨?_, ?_⟩, fun survivors spill schedule hComplete =>
    scattered_iff_guarded launch survivors spill hComplete⟩
  · intro hOrderless
    by_contra hNot
    rw [not_or, Nat.not_le, Nat.not_le] at hNot
    have hComplete :=
      complete_sequential launch
        (launch.start launch.partitionVal launch.partitionVal)
    exact
      (late_sequential launch hNot.1 _ _).not_rows hNot.1 hNot.2
        hComplete (hOrderless _ _ _ hComplete).rows
  · intro hSmall survivors spill schedule hComplete
    refine
      (scattered_iff_guarded launch survivors spill
        hComplete).mpr ?_
    refine
      guarded_of_forall (J := fun _ => True)
        (fun _ _ _ => trivial) ?_ trivial schedule
    intro pool tid _ _ hPhase _ other hInside hStores
    have hZero : other = 0 := by omega
    rw [hZero]
    exact hasRead_of_phase hPhase

/- A block as the collector launches it, for a group of 64 rows. -/
def wideLaunch : ScatterLaunch where
  blockDim := 256
  rawCount := 64
  writeLimit := 64
  cleanCount := 100
  dirtyCount := 20
  shardCapacity := 1024
  physicalShard := 3
  sourceBase := 0
  spillBase := 0
  bufferCount := 2
  globalSpillCapacity := 0
  partitionVal := fun _ => emptyCandidate
  blockDim_pos := scatterBlock_pos
  limit_le := by decide
  room := by
    intro row hRow
    omega

theorem wideLaunch_not_orderless : ¬ Orderless wideLaunch := by
  intro hOrderless
  have hComplete :=
    complete_sequential wideLaunch
      (wideLaunch.start wideLaunch.partitionVal
        wideLaunch.partitionVal)
  have hLate :=
    late_sequential wideLaunch (by decide)
      wideLaunch.partitionVal wideLaunch.partitionVal
  exact
    hLate.not_rows (by decide) (by decide) hComplete
      (hOrderless _ _ _ hComplete).rows

end Stream3

end BeamSearch
