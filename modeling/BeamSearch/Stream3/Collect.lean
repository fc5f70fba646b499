import BeamSearch.Lib.Exchange
import BeamSearch.Stream3.ScatterGrid

/-
  The collector of Stream 3: prepare and scatter.

  One kernel chooses a bank for every group of a sorted batch,
  counts the rows it takes and raises the fatal flag when some do
  not fit. Another kernel scatters the rows by the tables of the
  first. Neither drops a row nor overwrites one where the threads
  of a shard's block have all read its counts before the block
  raises them.

  Main declarations:
    * `prepareCounts`, `collectGrid`, `collect`
    * `firstFit`
    * `CollectsRight`
    * `collect_right_iff`
-/

namespace BeamSearch

open Exchange SegmentedReduce Compaction Threads

namespace Stream3

variable {groups : List (Nat × Nat)} {group : Nat × Nat}
    {pairs : List (Nat × CandidateMeta)} {geometry : ShardGeometry} {banks : Banks}
    {shard rawCount buffer : Nat}

----------------
-- The Fatal Flag
----------------

/- The code of the fatal stop. -/
def streamFatalDoubleBufferOverflow : Nat :=
  3002

/- The slots of the trace that go with the flag. -/
structure OverflowTrace where
  code : Nat
  shard : Nat
  group : Nat
  existing : Nat
  available : Nat
  rawCount : Nat
  writeCount : Nat
  spillCount : Nat
  spillOffset : Nat
  spillEnd : Nat
  spillCapacity : Nat
  cleanCount : Nat
  dirtyCount : Nat
  processingFlag : Nat
  shardCapacity : Nat
  stream4Batch : Nat
  appendToActiveSpill : Nat
  logicalShard : Nat
  selectedBuffer : Nat
  siblingShard : Nat
  siblingExisting : Nat
  siblingAvailable : Nat
  siblingCleanCount : Nat
  siblingDirtyCount : Nat
  siblingProcessingFlag : Nat
  shardBufferCount : Nat
deriving DecidableEq, Repr

/-
  The flag, and the trace of the first group that did not fit.
-/
structure FatalState where
  flag : Nat
  trace : Option OverflowTrace
deriving DecidableEq, Repr

/- A bank's capacity is a 32-bit word. -/
structure CollectSizes where
  geometry : ShardGeometry
  stream4BatchCandidates : Nat
  globalSpillCapacity : Nat
  appendToActiveSpill : Bool
  capacity_lt : geometry.shardCapacity < 2 ^ 32

----------------
-- The Prepare Kernel
----------------

/- What the trace tells of the other bank. -/
structure SiblingBank where
  physical : Nat
  existing : Nat
  available : Nat
  clean : Nat
  dirty : Nat
  processing : Nat
deriving DecidableEq, Repr

/- The values of a trace without a sibling. -/
def noSibling : SiblingBank where
  physical := uint32Max.toNat
  existing := 0
  available := 0
  clean := 0
  dirty := 0
  processing := 0

/- The roomiest bank of the shard besides the chosen one. -/
def siblingStep
    (geometry : ShardGeometry)
    (banks : Banks)
    (shard best : Nat)
    (sibling : SiblingBank)
    (step : Nat) : SiblingBank :=
  let candidate :=
    (banks.writeBufferIndex shard % shardBufferCount + step) %
      shardBufferCount
  if candidate = best then
    sibling
  else
    let physical := physicalShard shard candidate
    let available :=
      banks.available geometry.shardCapacity physical
    if sibling.physical = uint32Max.toNat ∨
        available > sibling.available then
      { physical := physical
        existing := banks.existing physical
        available := available
        clean := banks.cleanCount physical
        dirty := banks.dirtyCount physical
        processing := banks.processingFlag physical }
    else
      sibling

/- The other bank of the shard. -/
def siblingOf
    (geometry : ShardGeometry)
    (banks : Banks)
    (shard best : Nat) : SiblingBank :=
  (List.range shardBufferCount).foldl
    (siblingStep geometry banks shard best) noSibling

/- The walk over the groups, with the spill and the flag. -/
structure PrepareState where
  counts : PartitionCounts
  spillRunning : Nat
  fatal : FatalState

/- The trace of a group whose rows do not all fit. -/
def overflowTrace
    (sizes : CollectSizes)
    (banks : Banks)
    (spillRunning group shard rawCount : Nat) : OverflowTrace :=
  let best := bestBuffer sizes.geometry banks shard rawCount
  let physical := physicalShard shard best.buffer
  let writeCount := min rawCount best.available
  let sibling := siblingOf sizes.geometry banks shard best.buffer
  { code := streamFatalDoubleBufferOverflow
    shard := physical
    group := group
    existing := banks.existing physical
    available := best.available
    rawCount := rawCount
    writeCount := writeCount
    spillCount := rawCount - writeCount
    spillOffset := spillRunning
    spillEnd := spillRunning + (rawCount - writeCount)
    spillCapacity := sizes.globalSpillCapacity
    cleanCount := banks.cleanCount physical
    dirtyCount := banks.dirtyCount physical
    processingFlag := banks.processingFlag physical
    shardCapacity := sizes.geometry.shardCapacity
    stream4Batch := sizes.stream4BatchCandidates
    appendToActiveSpill :=
      if sizes.appendToActiveSpill = true then 1 else 0
    logicalShard := shard
    selectedBuffer := best.buffer
    siblingShard := sibling.physical
    siblingExisting := sibling.existing
    siblingAvailable := sibling.available
    siblingCleanCount := sibling.clean
    siblingDirtyCount := sibling.dirty
    siblingProcessingFlag := sibling.processing
    shardBufferCount := shardBufferCount }

/- One group with its number. A group past the shards is skipped. -/
def prepareGroup
    (sizes : CollectSizes)
    (banks : Banks)
    (state : PrepareState)
    (entry : (Nat × Nat) × Nat) : PrepareState :=
  let shard := entry.1.1
  let rawCount := entry.1.2
  if shard ≥ sizes.geometry.shardCount then
    state
  else
    let best := bestBuffer sizes.geometry banks shard rawCount
    let spillCount := rawCount - min rawCount best.available
    { counts :=
        preparePartitionGroup sizes.geometry banks state.counts
          entry.1
      spillRunning :=
        min (state.spillRunning + spillCount) uint32Max.toNat
      fatal :=
        if spillCount ≠ 0 ∧ state.fatal.flag = 0 then
          { flag := streamFatalDoubleBufferOverflow
            trace :=
              some
                (overflowTrace sizes banks state.spillRunning
                  entry.2 shard rawCount) }
        else
          state.fatal }

/- `spillCount` is what the active spill buffer holds. -/
def prepareCounts
    (sizes : CollectSizes)
    (banks : Banks)
    (spillCount : Nat)
    (groups : List (Nat × Nat))
    (fatal : FatalState) : PrepareState :=
  groups.zipIdx.foldl (prepareGroup sizes banks)
    { counts :=
        { shardCounts := fun _ => 0
          shardOffsets := fun _ => 0
          sourceRunning := 0
          writeBufferIndex := banks.writeBufferIndex
          doubleBufferOverflow := false }
      spillRunning :=
        if sizes.appendToActiveSpill = true then spillCount
        else 0
      fatal := fatal }

----------------
-- The Scatter Kernel
----------------

/- The banks, their rows and the flag. -/
structure Collector where
  banks : Banks
  survivors : Nat → CandidateMeta
  fatal : FatalState

/- The state a batch leaves, with the rows its scatter stored. -/
structure CollectResult extends Collector where
  stores : Nat → List (Nat × Nat)

/- The tables that the prepare kernel leaves for a batch. -/
def prepareBatch
    (cub : PartitionCub)
    (sizes : CollectSizes)
    (spillCount : Nat)
    (pairs : List (Nat × CandidateMeta))
    (state : Collector) : PrepareState :=
  prepareCounts sizes state.banks spillCount
    (partitionGroups cub pairs) state.fatal

/- What the scatter of a batch is launched on. -/
def collectGrid
    (cub : PartitionCub)
    (sizes : CollectSizes)
    (spillCount : Nat)
    (pairs : List (Nat × CandidateMeta))
    (state : Collector) : ScatterGrid :=
  let sorted := cub.sortPairs.run pairs
  let prepared := prepareBatch cub sizes spillCount pairs state
  { geometry := sizes.geometry
    fatalFlag := prepared.fatal.flag
    groups := partitionGroups cub pairs
    cleanCount := state.banks.cleanCount
    counts := prepared.counts
    partitionVal := fun i =>
      ((sorted[i]?).map Prod.snd).getD emptyCandidate }

/- The pool before the scatter. -/
def Collector.start (state : Collector) : GridPool :=
  ScatterGrid.start state.banks.dirtyCount state.survivors

/-
  One append of a batch: the pairs are sorted, counted by runs,
  prepared and scattered. The threads of the scatter take their
  steps as the schedule says.
-/
def collect
    (cub : PartitionCub)
    (sizes : CollectSizes)
    (spillCount : Nat)
    (pairs : List (Nat × CandidateMeta))
    (state : Collector)
    (schedule : List Nat) : CollectResult :=
  let prepared := prepareBatch cub sizes spillCount pairs state
  let grid := collectGrid cub sizes spillCount pairs state
  let memory := (run grid.stepGrid state.start schedule).shared
  { banks :=
      { state.banks with
        writeBufferIndex := prepared.counts.writeBufferIndex
        dirtyCount := memory.dirtyCount }
    survivors := memory.survivors
    fatal := prepared.fatal
    stores := memory.stores }

/- The schedule takes all threads of the scatter to their ends. -/
def CollectEnds
    (cub : PartitionCub)
    (sizes : CollectSizes)
    (spillCount : Nat)
    (pairs : List (Nat × CandidateMeta))
    (state : Collector)
    (schedule : List Nat) : Prop :=
  let grid := collectGrid cub sizes spillCount pairs state
  grid.Complete (run grid.stepGrid state.start schedule)

----------------
-- The Prepare Kernel And Its Counts
----------------

/- The counts of the kernel, and when its flag is set. -/
structure Raised
    (prepared : PrepareState)
    (counts : PartitionCounts)
    (fatal : FatalState) : Prop where
  same : prepared.counts = counts
  flag :
    prepared.fatal.flag ≠ 0 ↔
      fatal.flag ≠ 0 ∨ counts.doubleBufferOverflow = true
  kept :
    counts.doubleBufferOverflow = false →
      prepared.fatal = fatal

theorem prepareCounts_spec
    (sizes : CollectSizes)
    (banks : Banks)
    (spillCount : Nat)
    (groups : List (Nat × Nat))
    (fatal : FatalState) :
    Raised (prepareCounts sizes banks spillCount groups fatal)
      (preparePartitionCounts sizes.geometry banks groups)
      fatal := by
  unfold prepareCounts preparePartitionCounts
  generalize
    (if sizes.appendToActiveSpill = true then spillCount else 0) =
      spillRunning
  induction groups using List.reverseRecOn with
  | nil => exact ⟨rfl, by simp, fun _ => rfl⟩
  | append_singleton groups last ih =>
      rw [List.zipIdx_append, List.foldl_append, List.foldl_append]
      simp only [List.zipIdx_cons, List.zipIdx_nil, List.foldl_cons,
        List.foldl_nil]
      by_cases hSkip : last.1 ≥ sizes.geometry.shardCount
      · rw [prepareGroup, if_pos hSkip, preparePartitionGroup,
          if_pos hSkip]
        exact ih
      · rw [prepareGroup, if_neg hSkip]
        constructor
        case same =>
          dsimp only
          rw [ih.same]
        case flag =>
          have hFlag := ih.flag
          dsimp only
          rw [preparePartitionGroup, if_neg hSkip]
          dsimp only
          rw [Bool.or_eq_true, decide_eq_true_eq]
          split_ifs with hRaise
          · have hCode : streamFatalDoubleBufferOverflow ≠ 0 := by
              decide
            exact iff_of_true hCode (Or.inr (Or.inr hRaise.1))
          · rw [hFlag]
            constructor
            · intro hOld
              rcases hOld with hSet | hOver
              · exact Or.inl hSet
              · exact Or.inr (Or.inl hOver)
            · intro hNew
              rcases hNew with hSet | hOver | hSpill
              · exact Or.inl hSet
              · exact Or.inr hOver
              · refine hFlag.mp fun hZero => ?_
                exact hRaise ⟨hSpill, hZero⟩
        case kept =>
          intro hNone
          rw [preparePartitionGroup, if_neg hSkip] at hNone
          dsimp only at hNone
          rw [Bool.or_eq_false_iff, decide_eq_false_iff_not] at hNone
          dsimp only
          rw [if_neg fun hRaise => hNone.2 hRaise.1]
          exact ih.kept hNone.1

/- A group past the shards changes nothing. -/
theorem foldl_filter_of_fixed
    {α β : Type}
    {step : β → α → β}
    (live : α → Bool)
    (hFixed : ∀ b a, live a = false → step b a = b)
    (xs : List α)
    (b : β) :
    xs.foldl step b = (xs.filter live).foldl step b := by
  induction xs generalizing b with
  | nil => rfl
  | cons a xs ih =>
      rw [List.foldl_cons, ih]
      cases hLive : live a with
      | true =>
          rw [List.filter_cons_of_pos hLive]
          rfl
      | false =>
          rw [List.filter_cons_of_neg (by simp [hLive]),
            hFixed b a hLive]

/- The groups of real shards. -/
def liveGroups
    (geometry : ShardGeometry)
    (groups : List (Nat × Nat)) : List (Nat × Nat) :=
  groups.filter fun group => group.1 < geometry.shardCount

theorem preparePartitionCounts_live
    (geometry : ShardGeometry)
    (banks : Banks)
    (groups : List (Nat × Nat)) :
    preparePartitionCounts geometry banks groups =
      preparePartitionCounts geometry banks
        (liveGroups geometry groups) := by
  refine foldl_filter_of_fixed _ ?_ groups _
  intro counts group hDead
  have hPast : group.1 ≥ geometry.shardCount := by
    simpa using hDead
  rw [preparePartitionGroup, if_pos hPast]

/- The source rows of a group start behind the smaller shards. -/
structure SourceOffsets
    (groups : List (Nat × Nat))
    (counts : PartitionCounts) : Prop where
  offset :
    ∀ group ∈ groups,
      counts.shardOffsets group.1 =
        ((groups.filter fun other =>
          other.1 < group.1).map Prod.snd).sum
  running :
    counts.sourceRunning = (groups.map Prod.snd).sum

theorem preparePartitionCounts_offsets
    (geometry : ShardGeometry)
    (banks : Banks)
    (hSorted : groups.Pairwise fun a b => a.1 < b.1)
    (hInside : ∀ group ∈ groups, group.1 < geometry.shardCount) :
    SourceOffsets groups
      (preparePartitionCounts geometry banks groups) := by
  rw [preparePartitionCounts]
  induction groups using List.reverseRecOn with
  | nil => exact ⟨by simp, rfl⟩
  | append_singleton groups last ih =>
      rw [List.pairwise_append] at hSorted
      have hBefore :=
        ih hSorted.1 fun group hMem =>
          hInside group (List.mem_append_left _ hMem)
      have hBelow :
          ∀ group ∈ groups, group.1 < last.1 := fun group hMem =>
        hSorted.2.2 group hMem last (by simp)
      have hLast : ¬ last.1 ≥ geometry.shardCount :=
        Nat.not_le.mpr (hInside last (by simp))
      rw [List.foldl_append, List.foldl_cons, List.foldl_nil,
        preparePartitionGroup]
      dsimp only
      rw [if_neg hLast]
      constructor
      case offset =>
        intro group hMem
        rw [List.filter_append, List.map_append, List.sum_append]
        dsimp only
        rcases List.mem_append.mp hMem with hOld | hNew
        · have hLt := hBelow group hOld
          have hNone :
              ([last].filter fun other => other.1 < group.1) =
                [] := by
            simpa using Nat.le_of_lt hLt
          rw [Function.update_of_ne (Nat.ne_of_lt hLt),
            hBefore.offset group hOld, hNone]
          rfl
        · rw [List.mem_singleton.mp hNew, Function.update_self,
            hBefore.running]
          have hAll :
              (groups.filter fun other => other.1 < last.1) =
                groups :=
            List.filter_eq_self.mpr fun other hOther =>
              decide_eq_true (hBelow other hOther)
          have hNone :
              ([last].filter fun other => other.1 < last.1) =
                [] := by
            simp
          rw [hAll, hNone]
          rfl
      case running =>
        dsimp only
        rw [hBefore.running, List.map_append, List.sum_append]
        simp

----------------
-- The Groups Of A Batch
----------------

/- Every key of the batch has its group. -/
theorem partitionGroups_covers
    (cub : PartitionCub)
    (pairs : List (Nat × CandidateMeta)) :
    ∀ p ∈ pairs, ∃ group ∈ partitionGroups cub pairs,
      group.1 = p.1 := by
  intro p hMem
  let ones :=
    (cub.sortPairs.run pairs).map fun p => (p.1, 1)
  have hSorted :
      ones.Pairwise fun (p q : Nat × Nat) => p.1 ≤ q.1 :=
    List.pairwise_map.mpr (cub.sortPairs.sorted pairs)
  rcases (cub.reduceByKey.reduces ones).of_sorted hSorted with
    ⟨-, -, hCovers⟩
  have hOne : (p.1, 1) ∈ ones :=
    List.mem_map.mpr
      ⟨p, (cub.sortPairs.perm pairs).mem_iff.mpr hMem, rfl⟩
  rcases hCovers _ hOne with ⟨value, hGroup⟩
  exact ⟨(p.1, value), hGroup, rfl⟩

/- A run of pairs is never empty. -/
theorem partitionGroups_pos
    (cub : PartitionCub)
    (pairs : List (Nat × CandidateMeta)) :
    ∀ group ∈ partitionGroups cub pairs, 0 < group.2 := by
  intro group hGroup
  let ones :=
    (cub.sortPairs.run pairs).map fun p => (p.1, 1)
  have hSorted :
      ones.Pairwise fun (p q : Nat × Nat) => p.1 ≤ q.1 :=
    List.pairwise_map.mpr (cub.sortPairs.sorted pairs)
  rcases (cub.reduceByKey.reduces ones).of_sorted hSorted with
    ⟨-, hFolds, -⟩
  rcases List.exists_mem_of_ne_nil _
      (hFolds group hGroup).ne_nil with
    ⟨one, hOne⟩
  rcases List.mem_map.mp (mem_valuesOf_iff.mp hOne) with
    ⟨p, hMem, hPair⟩
  rw [(partitionGroups_spec cub pairs).2 group hGroup]
  refine List.countP_pos_iff.mpr
    ⟨p, (cub.sortPairs.perm pairs).mem_iff.mp hMem, ?_⟩
  exact decide_eq_true (Prod.mk.inj hPair).1

/- The sum over the one group of a key. -/
theorem sum_filter_eq_of_mem
    (hSorted : groups.Pairwise fun a b => a.1 < b.1)
    (hMem : group ∈ groups) :
    ((groups.filter fun other =>
        other.1 = group.1).map Prod.snd).sum = group.2 := by
  induction groups with
  | nil => cases hMem
  | cons first groups ih =>
      rcases List.pairwise_cons.mp hSorted with ⟨hBelow, hRest⟩
      rcases List.mem_cons.mp hMem with hFirst | hLater
      · have hNone :
            (groups.filter fun other => other.1 = group.1) =
              [] :=
          List.filter_eq_nil_iff.mpr fun other hOther hSame => by
            have hLt := hBelow other hOther
            have hEq : other.1 = group.1 := of_decide_eq_true hSame
            rw [hEq, hFirst] at hLt
            exact absurd hLt (lt_irrefl _)
        rw [List.filter_cons_of_pos (by simp [hFirst]), hNone]
        simp [hFirst]
      · have hLt := hBelow group hLater
        rw [List.filter_cons_of_neg (by simp; omega)]
        exact ih hRest hLater

theorem sum_filter_lt_succ
    (groups : List (Nat × Nat))
    (n : Nat) :
    ((groups.filter fun group =>
        group.1 < n + 1).map Prod.snd).sum =
      ((groups.filter fun group =>
          group.1 < n).map Prod.snd).sum +
        ((groups.filter fun group =>
          group.1 = n).map Prod.snd).sum := by
  induction groups with
  | nil => rfl
  | cons group groups ih =>
      simp only [List.filter_cons]
      by_cases hLt : group.1 < n
      · have hSucc : group.1 < n + 1 := by omega
        have hNe : ¬ group.1 = n := by omega
        simp only [hLt, hSucc, hNe, decide_true, decide_false,
          if_true, Bool.false_eq_true, if_false, List.map_cons,
          List.sum_cons, ih]
        omega
      · by_cases hEq : group.1 = n
        · have hSucc : group.1 < n + 1 := by omega
          simp only [hEq, decide_true, decide_false, if_true,
            lt_irrefl, Nat.lt_succ_self, Bool.false_eq_true,
            if_false, List.map_cons, List.sum_cons, ih]
          omega
        · have hSucc : ¬ group.1 < n + 1 := by omega
          simp only [hLt, hEq, hSucc, decide_false,
            Bool.false_eq_true, if_false, ih]

/- Groups that count the rows add up to the rows below a key. -/
theorem sum_groups_below
    {bound : Nat}
    (hSorted : groups.Pairwise fun a b => a.1 < b.1)
    (hCount :
      ∀ group ∈ groups,
        group.2 = pairs.countP fun p => p.1 = group.1)
    (hCovers :
      ∀ p ∈ pairs, p.1 < bound →
        ∃ group ∈ groups, group.1 = p.1)
    (n : Nat)
    (hBound : n ≤ bound) :
    ((groups.filter fun group =>
        group.1 < n).map Prod.snd).sum =
      pairs.countP fun p => p.1 < n := by
  induction n with
  | zero => simp
  | succ n ih =>
      have hHere :
          ((groups.filter fun group =>
              group.1 = n).map Prod.snd).sum =
            pairs.countP fun p => p.1 = n := by
        by_cases hSome : ∃ group ∈ groups, group.1 = n
        · rcases hSome with ⟨group, hMem, hKey⟩
          rw [← hKey, sum_filter_eq_of_mem hSorted hMem]
          exact hCount group hMem
        · have hNoGroup :
              (groups.filter fun group => group.1 = n) = [] :=
            List.filter_eq_nil_iff.mpr fun group hMem hKey =>
              hSome ⟨group, hMem, of_decide_eq_true hKey⟩
          have hNoRow :
              (pairs.countP fun p => p.1 = n) = 0 :=
            List.countP_eq_zero.mpr fun p hMem hKey => by
              have hSame : p.1 = n := of_decide_eq_true hKey
              rcases hCovers p hMem (by omega) with
                ⟨group, hGroup, hEq⟩
              exact hSome ⟨group, hGroup, hEq.trans hSame⟩
          rw [hNoGroup, hNoRow]
          rfl
      rw [sum_filter_lt_succ, ih (by omega), hHere,
        Cdf.countP_lt_succ]

/- The groups a batch appends, with what is known of them. -/
structure Batch
    (geometry : ShardGeometry)
    (pairs : List (Nat × CandidateMeta))
    (groups : List (Nat × Nat)) : Prop where
  sorted : groups.Pairwise fun a b => a.1 < b.1
  inside : ∀ group ∈ groups, group.1 < geometry.shardCount
  count :
    ∀ group ∈ groups,
      group.2 = (valuesOf pairs group.1).length
  nonempty : ∀ group ∈ groups, 0 < group.2
  covers :
    ∀ p ∈ pairs, p.1 < geometry.shardCount →
      ∃ group ∈ groups, group.1 = p.1

theorem length_valuesOf
    (pairs : List (Nat × CandidateMeta))
    (shard : Nat) :
    (valuesOf pairs shard).length =
      pairs.countP fun p => p.1 = shard := by
  rw [valuesOf, List.length_map, List.countP_eq_length_filter]

theorem batch_liveGroups
    (cub : PartitionCub)
    (geometry : ShardGeometry)
    (pairs : List (Nat × CandidateMeta)) :
    Batch geometry pairs
      (liveGroups geometry (partitionGroups cub pairs)) := by
  rcases partitionGroups_spec cub pairs with ⟨hSorted, hCount⟩
  constructor
  case sorted => exact hSorted.filter _
  case inside =>
    intro group hMem
    exact of_decide_eq_true (List.mem_filter.mp hMem).2
  case count =>
    intro group hMem
    rw [length_valuesOf]
    exact hCount group (List.mem_filter.mp hMem).1
  case nonempty =>
    intro group hMem
    exact
      partitionGroups_pos cub pairs group
        (List.mem_filter.mp hMem).1
  case covers =>
    intro p hMem hInside
    rcases partitionGroups_covers cub pairs p hMem with
      ⟨group, hGroup, hKey⟩
    refine ⟨group, List.mem_filter.mpr ⟨hGroup, ?_⟩, hKey⟩
    exact decide_eq_true (hKey ▸ hInside)

/- Reading a segment of the sorted rows. -/
theorem firstN_segment
    {offset count : Nat}
    (hFits : offset + count ≤ pairs.length) :
    firstN
        (fun i =>
          ((pairs[offset + i]?).map Prod.snd).getD emptyCandidate)
        count =
      ((pairs.drop offset).take count).map Prod.snd := by
  apply List.ext_getElem?
  intro i
  by_cases hLt : i < count
  · have hInside : offset + i < pairs.length := by omega
    rw [getElem?_firstN _ hLt, List.getElem?_map,
      List.getElem?_take_of_lt hLt, List.getElem?_drop,
      List.getElem?_eq_getElem hInside]
    rfl
  · rw [List.getElem?_eq_none (by rw [length_firstN]; omega),
      List.getElem?_eq_none (by simp; omega)]

/- Every group finds its rows where its offset says. -/
theorem Batch.rows
    {sorted : List (Nat × CandidateMeta)}
    {counts : PartitionCounts}
    (hBatch : Batch geometry pairs groups)
    (hOffsets : SourceOffsets groups counts)
    (hPerm : sorted.Perm pairs)
    (hSorted : sorted.Pairwise fun p q => p.1 ≤ q.1)
    (hMem : group ∈ groups) :
    (firstN
        (fun i =>
          ((sorted[counts.shardOffsets group.1 + i]?).map
            Prod.snd).getD emptyCandidate)
        group.2).Perm
      (valuesOf pairs group.1) := by
  have hCount := hBatch.count group hMem
  have hBelow :
      counts.shardOffsets group.1 =
        sorted.countP fun p => p.1 < group.1 := by
    have hSum :=
      sum_groups_below hBatch.sorted
        (fun other hOther => by
          rw [hBatch.count other hOther, length_valuesOf])
        hBatch.covers group.1
        (Nat.le_of_lt (hBatch.inside group hMem))
    rw [hOffsets.offset group hMem, hSum]
    exact (hPerm.countP_eq _).symm
  have hSame :
      group.2 = sorted.countP fun p => p.1 = group.1 := by
    rw [hCount, length_valuesOf]
    exact (hPerm.countP_eq _).symm
  have hFits :
      counts.shardOffsets group.1 + group.2 ≤ sorted.length := by
    have hSucc := Cdf.countP_lt_succ Prod.fst sorted group.1
    have hAll :=
      List.countP_le_length
        (p := fun p : Nat × CandidateMeta =>
          decide (p.1 < group.1 + 1)) (l := sorted)
    omega
  have hSegment :
      (sorted.drop (sorted.countP fun p => p.1 < group.1)).take
          (sorted.countP fun p => p.1 = group.1) =
        sorted.filter fun p => p.1 = group.1 :=
    drop_take_eq_filter hSorted group.1
  rw [firstN_segment hFits, hBelow, hSame, hSegment]
  exact (hPerm.filter _).map _

----------------
-- The First Bank That Takes A Group
----------------

/- A group that fits has its rows inside a bank that is free. -/
theorem room_of_groupFits
    (hFits : GroupFits geometry banks group)
    (hPos : 0 < group.2) :
    banks.processingFlag (appendBank geometry banks group) = 0 ∧
      banks.existing (appendBank geometry banks group) +
          group.2 ≤
        geometry.shardCapacity := by
  rcases bestBuffer_spec geometry banks group.1 group.2 with
    ⟨-, hAvailable, -⟩
  unfold GroupFits at hFits
  rw [hAvailable, Banks.available] at hFits
  unfold appendBank
  split_ifs at hFits with hFree
  · exact ⟨hFree.1, by omega⟩
  · omega

/- The rows of a bank. The kernels keep the sum as a word. -/
def Banks.held (banks : Banks) (physical : Nat) : Nat :=
  banks.cleanCount physical + banks.dirtyCount physical

theorem Banks.existing_of_held
    {physical : Nat}
    (hWord : banks.held physical < 2 ^ 32) :
    banks.existing physical = banks.held physical :=
  Nat.mod_eq_of_lt hWord

/-
  The bank is not processing and has room for more rows, where
  `rows` tells how many each bank has.
-/
def CanTake
    (geometry : ShardGeometry)
    (banks : Banks)
    (rows : Nat → Nat)
    (rawCount physical : Nat) : Prop :=
  banks.processingFlag physical = 0 ∧
    rows physical + rawCount ≤ geometry.shardCapacity

/- Whether a bank has room can be computed. -/
instance
    (geometry : ShardGeometry)
    (banks : Banks)
    (rows : Nat → Nat)
    (rawCount physical : Nat) :
    Decidable (CanTake geometry banks rows rawCount physical) := by
  unfold CanTake
  infer_instance

/- The banks of a shard from its write index on. -/
def rotation (banks : Banks) (shard : Nat) : List Nat :=
  (List.range shardBufferCount).map fun step =>
    (banks.writeBufferIndex shard % shardBufferCount + step) %
      shardBufferCount

/- The first bank with room, from the one that is written to. -/
def firstFit
    (geometry : ShardGeometry)
    (banks : Banks)
    (rows : Nat → Nat)
    (shard rawCount : Nat) : Option Nat :=
  (rotation banks shard).find? fun buffer =>
    CanTake geometry banks rows rawCount
      (physicalShard shard buffer)

theorem canTake_of_firstFit
    {rows : Nat → Nat}
    (hFirst :
      firstFit geometry banks rows shard rawCount =
        some buffer) :
    CanTake geometry banks rows rawCount
      (physicalShard shard buffer) := by
  unfold firstFit at hFirst
  have hFound := List.find?_some hFirst
  exact of_decide_eq_true hFound

theorem lt_of_firstFit
    {rows : Nat → Nat}
    (hFirst :
      firstFit geometry banks rows shard rawCount =
        some buffer) :
    buffer < shardBufferCount := by
  rcases List.mem_map.mp (List.mem_of_find?_eq_some hFirst) with
    ⟨step, -, hStep⟩
  rw [← hStep]
  exact mod_shardBufferCount_lt _

/- Every bank of a shard is in its rotation. -/
theorem mem_rotation
    (banks : Banks)
    (shard : Nat)
    (hLt : buffer < shardBufferCount) :
    buffer ∈ rotation banks shard := by
  refine List.mem_map.mpr
    ⟨(buffer + shardBufferCount - currentBuffer banks shard) %
        shardBufferCount,
      List.mem_range.mpr (mod_shardBufferCount_lt _), ?_⟩
  have hCurrent :
      currentBuffer banks shard < shardBufferCount :=
    mod_shardBufferCount_lt _
  rw [currentBuffer, shardBufferCount] at *
  omega

theorem firstFit_isSome_iff
    {rows : Nat → Nat} :
    (∃ buffer,
        firstFit geometry banks rows shard rawCount =
          some buffer) ↔
      ∃ buffer < shardBufferCount,
        CanTake geometry banks rows rawCount
          (physicalShard shard buffer) := by
  constructor
  · intro hSome
    rcases hSome with ⟨buffer, hFirst⟩
    exact
      ⟨buffer, lt_of_firstFit hFirst, canTake_of_firstFit hFirst⟩
  · intro hSome
    rcases hSome with ⟨buffer, hLt, hTake⟩
    cases hFirst : firstFit geometry banks rows shard rawCount with
    | some first => exact ⟨first, rfl⟩
    | none =>
        have hNone :=
          List.find?_eq_none.mp hFirst buffer
            (mem_rotation banks shard hLt)
        exact absurd (decide_eq_true hTake) hNone

/- What really fits, fits by the words too. -/
theorem CanTake.word
    {physical : Nat}
    (hTake :
      CanTake geometry banks banks.held rawCount physical) :
    CanTake geometry banks banks.existing rawCount physical := by
  refine ⟨hTake.1, le_trans ?_ hTake.2⟩
  exact Nat.add_le_add_right (Nat.mod_le _ _) _

/-
  The first bank by the words is the first bank, if it has no
  more rows than a word counts.
-/
theorem firstFit_held
    (hFirst :
      firstFit geometry banks banks.existing shard rawCount =
        some buffer)
    (hWord : banks.held (physicalShard shard buffer) < 2 ^ 32) :
    firstFit geometry banks banks.held shard rawCount =
      some buffer := by
  have hTake := canTake_of_firstFit hFirst
  unfold firstFit at hFirst ⊢
  rcases List.find?_eq_some_iff_append.mp hFirst with
    ⟨-, earlier, later, hSplit, hBefore⟩
  refine
    List.find?_eq_some_iff_append.mpr
      ⟨?_, earlier, later, hSplit, ?_⟩
  · rw [decide_eq_true_eq]
    refine ⟨hTake.1, ?_⟩
    rw [← Banks.existing_of_held hWord]
    exact hTake.2
  · intro other hOther
    have hNot := hBefore other hOther
    rw [Bool.not_eq_true', decide_eq_false_iff_not] at hNot ⊢
    exact fun hHeld => hNot hHeld.word

theorem canTake_iff
    {physical : Nat}
    (hPos : 0 < rawCount) :
    CanTake geometry banks banks.existing rawCount physical ↔
      rawCount ≤ banks.available geometry.shardCapacity physical := by
  unfold CanTake Banks.available
  split_ifs with hFree
  · omega
  · constructor
    · intro hTake
      exact absurd ⟨hTake.1, by omega⟩ hFree
    · intro hNone
      omega

/- The loop stops at the first bank that takes the rows. -/
theorem bestBufferLoop_buffer
    {available : Nat → Nat}
    {current : Nat}
    (steps : List Nat)
    (best : BestBuffer)
    (hFirst :
      ((steps.map fun step =>
          (current + step) % shardBufferCount).find?
        fun buffer => rawCount ≤ available buffer) =
        some buffer) :
    (bestBufferLoop available current rawCount steps
        best).buffer =
      buffer := by
  induction steps generalizing best with
  | nil => cases hFirst
  | cons step steps ih =>
      rw [List.map_cons] at hFirst
      rw [bestBufferLoop]
      by_cases hFits :
          rawCount ≤
            available ((current + step) % shardBufferCount)
      · rw [List.find?_cons_of_pos (by simpa using hFits)] at hFirst
        rw [if_pos hFits]
        exact Option.some.inj hFirst
      · rw [List.find?_cons_of_neg (by simpa using hFits)] at hFirst
        rw [if_neg hFits]
        split
        · exact ih _ hFirst
        · exact ih _ hFirst

theorem bestBuffer_of_firstFit
    (hPos : 0 < rawCount)
    (hFirst :
      firstFit geometry banks banks.existing shard rawCount = some buffer) :
    (bestBuffer geometry banks shard rawCount).buffer =
      buffer := by
  refine bestBufferLoop_buffer _ _ ?_
  rw [← hFirst, firstFit, rotation]
  congr 1
  funext buffer
  rw [decide_eq_decide]
  exact (canTake_iff hPos).symm

/- A group fits where some bank of its shard can take it. -/
theorem groupFits_iff
    (hPos : 0 < group.2) :
    GroupFits geometry banks group ↔
      ∃ buffer < shardBufferCount,
        CanTake geometry banks banks.existing group.2
          (physicalShard group.1 buffer) := by
  rcases bestBuffer_spec geometry banks group.1 group.2 with
    ⟨hBuffer, -, hBest⟩
  constructor
  · intro hFits
    exact ⟨_, hBuffer, room_of_groupFits hFits hPos⟩
  · intro hSome
    rcases hSome with ⟨buffer, hLt, hTake⟩
    exact hBest buffer hLt ((canTake_iff hPos).mp hTake)

theorem firstFit_of_groupFits
    (hPos : 0 < group.2)
    (hFits : GroupFits geometry banks group) :
    firstFit geometry banks banks.existing group.1 group.2 =
      some (bestBuffer geometry banks group.1 group.2).buffer := by
  rcases firstFit_isSome_iff.mpr ((groupFits_iff hPos).mp hFits) with
    ⟨buffer, hFirst⟩
  rw [hFirst, bestBuffer_of_firstFit hPos hFirst]

----------------
-- The Result
----------------

/- Rows appended behind the rows of one free bank. -/
structure AppendedTo
    (geometry : ShardGeometry)
    (state : Collector)
    (result : CollectResult)
    (shard : Nat)
    (rows : List CandidateMeta)
    (physical : Nat) : Prop where
  free : state.banks.processingFlag physical = 0
  room :
    state.banks.held physical + rows.length ≤
      geometry.shardCapacity
  dirty :
    result.banks.dirtyCount physical =
      state.banks.dirtyCount physical + rows.length
  stores :
    (result.stores shard).Perm
      ((List.range rows.length).map fun row =>
        (row,
          physical * geometry.shardCapacity +
            (state.banks.held physical + row)))
  rows :
    (firstN
        (fun i =>
          result.survivors
            (physical * geometry.shardCapacity +
              (state.banks.held physical + i)))
        rows.length).Perm
      rows

/- Every row of the batch is appended once, and nothing else. -/
structure Collected
    (geometry : ShardGeometry)
    (pairs : List (Nat × CandidateMeta))
    (state : Collector)
    (result : CollectResult) : Prop where
  fatal : result.fatal = state.fatal
  clean : result.banks.cleanCount = state.banks.cleanCount
  appended :
    ∀ shard < geometry.shardCount, valuesOf pairs shard ≠ [] →
      ∃ buffer,
        firstFit geometry state.banks state.banks.held shard
            (valuesOf pairs shard).length =
          some buffer ∧
        AppendedTo geometry state result shard
          (valuesOf pairs shard) (physicalShard shard buffer)
  idle :
    ∀ shard,
      geometry.shardCount ≤ shard ∨ valuesOf pairs shard = [] →
        result.stores shard = []
  grown :
    ∀ physical,
      result.banks.dirtyCount physical ≠
          state.banks.dirtyCount physical →
        ∃ shard < geometry.shardCount, ∃ buffer,
          firstFit geometry state.banks state.banks.held shard
              (valuesOf pairs shard).length =
            some buffer ∧
          physical = physicalShard shard buffer
  kept :
    ∀ physical, ∀ position < geometry.shardCapacity,
      position < state.banks.held physical ∨
          result.banks.held physical ≤ position →
        result.survivors
            (physical * geometry.shardCapacity + position) =
          state.survivors
            (physical * geometry.shardCapacity + position)

/-
  Some bank of every shard can take the rows of the shard, by
  what the banks are said to hold.
-/
def CanCollect
    (geometry : ShardGeometry)
    (pairs : List (Nat × CandidateMeta))
    (state : Collector)
    (rows : Nat → Nat) : Prop :=
  state.fatal.flag = 0 ∧
    ∀ shard < geometry.shardCount, valuesOf pairs shard ≠ [] →
      ∃ buffer < shardBufferCount,
        CanTake geometry state.banks rows
          (valuesOf pairs shard).length
          (physicalShard shard buffer)

/- A refused batch leaves the banks as they are. -/
structure Refused
    (state : Collector)
    (result : CollectResult) : Prop where
  raised : result.fatal.flag ≠ 0
  survivors : result.survivors = state.survivors
  clean : result.banks.cleanCount = state.banks.cleanCount
  dirty : result.banks.dirtyCount = state.banks.dirtyCount
  stores : ∀ shard, result.stores shard = []

/-
  What a batch owes. It is appended without loss if all its rows
  have a bank, else it raises the flag and writes nothing. A
  bank that is processing is never written.
-/
structure CollectsRight
    (geometry : ShardGeometry)
    (pairs : List (Nat × CandidateMeta))
    (state : Collector)
    (result : CollectResult) : Prop where
  collected :
    CanCollect geometry pairs state state.banks.held →
      Collected geometry pairs state result
  refused :
    ¬ CanCollect geometry pairs state state.banks.held →
      Refused state result
  processing :
    ∀ physical, state.banks.processingFlag physical ≠ 0 →
      result.banks.dirtyCount physical =
          state.banks.dirtyCount physical ∧
        ∀ position < geometry.shardCapacity,
          result.survivors
              (physical * geometry.shardCapacity + position) =
            state.survivors
              (physical * geometry.shardCapacity + position)

/-
  Where every shard has a bank by the 32-bit sums, no bank that
  is the first in its rotation has more rows than a word counts.
-/
def WordsHold
    (geometry : ShardGeometry)
    (pairs : List (Nat × CandidateMeta))
    (state : Collector) : Prop :=
  CanCollect geometry pairs state state.banks.existing →
    ∀ shard < geometry.shardCount, valuesOf pairs shard ≠ [] →
      ∀ buffer,
        firstFit geometry state.banks state.banks.existing shard
            (valuesOf pairs shard).length =
          some buffer →
        state.banks.held (physicalShard shard buffer) < 2 ^ 32

theorem CanCollect.word
    {state : Collector}
    (hCan : CanCollect geometry pairs state state.banks.held) :
    CanCollect geometry pairs state state.banks.existing := by
  refine ⟨hCan.1, fun shard hShard hRows => ?_⟩
  rcases hCan.2 shard hShard hRows with ⟨buffer, hLt, hTake⟩
  exact ⟨buffer, hLt, hTake.word⟩

theorem CanCollect.held
    {state : Collector}
    (hCan : CanCollect geometry pairs state state.banks.existing)
    (hWords : WordsHold geometry pairs state) :
    CanCollect geometry pairs state state.banks.held := by
  refine ⟨hCan.1, fun shard hShard hRows => ?_⟩
  rcases firstFit_isSome_iff.mpr (hCan.2 shard hShard hRows) with
    ⟨buffer, hFirst⟩
  have hWord := hWords hCan shard hShard hRows buffer hFirst
  exact
    firstFit_isSome_iff.mp ⟨buffer, firstFit_held hFirst hWord⟩

theorem Batch.canCollect_iff
    {state : Collector}
    (hBatch : Batch geometry pairs groups) :
    CanCollect geometry pairs state state.banks.existing ↔
      state.fatal.flag = 0 ∧
        ∀ group ∈ groups, GroupFits geometry state.banks group := by
  unfold CanCollect
  refine and_congr_right fun _ => ?_
  constructor
  · intro hAll group hMem
    have hCount := hBatch.count group hMem
    have hPos := hBatch.nonempty group hMem
    refine (groupFits_iff hPos).mpr ?_
    rw [hCount]
    refine hAll group.1 (hBatch.inside group hMem) ?_
    intro hNil
    rw [hNil] at hCount
    exact absurd hCount (Nat.ne_of_gt hPos)
  · intro hAll shard hShard hRows
    rcases List.exists_mem_of_ne_nil _ hRows with ⟨row, hRow⟩
    rcases hBatch.covers _ (mem_valuesOf_iff.mp hRow) hShard with
      ⟨group, hMem, hKey⟩
    have hTake :=
      (groupFits_iff (hBatch.nonempty group hMem)).mp
        (hAll group hMem)
    have hCount := hBatch.count group hMem
    dsimp only at hKey
    rw [hKey] at hCount hTake
    rw [← hCount]
    exact hTake

----------------
-- The Blocks Of A Batch
----------------

section Batch

variable {cub : PartitionCub}
variable {sizes : CollectSizes}
variable {spillCount : Nat}
variable {state : Collector}

/- The tables for the groups of real shards. -/
theorem prepareBatch_spec
    (cub : PartitionCub)
    (sizes : CollectSizes)
    (spillCount : Nat)
    (pairs : List (Nat × CandidateMeta))
    (state : Collector) :
    let live :=
      liveGroups sizes.geometry (partitionGroups cub pairs)
    let counts :=
      preparePartitionCounts sizes.geometry state.banks live
    Raised (prepareBatch cub sizes spillCount pairs state) counts
        state.fatal ∧
      Prepared sizes.geometry state.banks live counts ∧
      SourceOffsets live counts := by
  have hBatch := batch_liveGroups cub sizes.geometry pairs
  have hRaised :=
    prepareCounts_spec sizes state.banks spillCount
      (partitionGroups cub pairs) state.fatal
  rw [preparePartitionCounts_live] at hRaised
  exact
    ⟨hRaised,
      preparePartitionCounts_spec sizes.geometry state.banks
        hBatch.sorted hBatch.inside,
      preparePartitionCounts_offsets sizes.geometry state.banks
        hBatch.sorted hBatch.inside⟩

theorem collect_flag :
    (collectGrid cub sizes spillCount pairs state).fatalFlag =
        0 ↔
      CanCollect sizes.geometry pairs state
        state.banks.existing := by
  have hBatch := batch_liveGroups cub sizes.geometry pairs
  rcases prepareBatch_spec cub sizes spillCount pairs state with
    ⟨hRaised, hPrepared, -⟩
  have hFlag := hRaised.flag
  rw [hPrepared.overflow] at hFlag
  rw [hBatch.canCollect_iff, ← not_iff_not, ← ne_eq]
  refine hFlag.trans ?_
  rw [not_and_or]
  push Not
  exact Iff.rfl

theorem collect_fatal
    {schedule : List Nat}
    (hCan :
      CanCollect sizes.geometry pairs state
        state.banks.existing) :
    (collect cub sizes spillCount pairs state schedule).fatal =
      state.fatal := by
  have hBatch := batch_liveGroups cub sizes.geometry pairs
  rcases prepareBatch_spec cub sizes spillCount pairs state with
    ⟨hRaised, hPrepared, -⟩
  refine hRaised.kept ?_
  rw [Bool.eq_false_iff]
  intro hOver
  rcases hPrepared.overflow.mp hOver with ⟨group, hMem, hNot⟩
  exact hNot ((hBatch.canCollect_iff.mp hCan).2 group hMem)

/- The group of a block, as the prepare kernel left it. -/
structure BlockGroup
    (cub : PartitionCub)
    (sizes : CollectSizes)
    (spillCount : Nat)
    (pairs : List (Nat × CandidateMeta))
    (state : Collector)
    (group : Nat × Nat) : Prop where
  can :
    CanCollect sizes.geometry pairs state state.banks.existing
  mem :
    group ∈
      liveGroups sizes.geometry (partitionGroups cub pairs)
  fits : GroupFits sizes.geometry state.banks group
  target :
    (collectGrid cub sizes spillCount pairs state).counts.target
        group.1 =
      appendBank sizes.geometry state.banks group
  count :
    (collectGrid cub sizes spillCount pairs
          state).counts.shardCounts group.1 =
      group.2

theorem blockGroup
    {block : Nat}
    (hGroup :
      (collectGrid cub sizes spillCount pairs state).group? block =
        some group) :
    BlockGroup cub sizes spillCount pairs state group := by
  have hBatch := batch_liveGroups cub sizes.geometry pairs
  rcases group?_eq_some_iff.mp hGroup with ⟨hFlag, -, -, hLive⟩
  have hCan := collect_flag.mp hFlag
  have hMem :
      group ∈
        liveGroups sizes.geometry (partitionGroups cub pairs) :=
    List.mem_filter.mpr
      ⟨mem_groups_of_group? hGroup, decide_eq_true hLive⟩
  have hFits := (hBatch.canCollect_iff.mp hCan).2 group hMem
  rcases prepareBatch_spec cub sizes spillCount pairs state with
    ⟨hRaised, hPrepared, -⟩
  have hTarget := hPrepared.target group hMem
  have hCount := hPrepared.count group hMem
  rw [← hRaised.same] at hTarget hCount
  exact
    ⟨hCan, hMem, hFits, hTarget,
      hCount.trans (min_eq_left hFits)⟩

theorem exists_blockGroup
    (hCan :
      CanCollect sizes.geometry pairs state state.banks.existing)
    (hMem :
      group ∈
        liveGroups sizes.geometry (partitionGroups cub pairs)) :
    ∃ block,
      (collectGrid cub sizes spillCount pairs state).group? block =
        some group := by
  rcases List.mem_filter.mp hMem with ⟨hGroup, hLive⟩
  exact
    exists_block (collect_flag.mpr hCan)
      (partitionGroups_spec cub pairs).1 hGroup
      (of_decide_eq_true hLive)

theorem BlockGroup.base
    (hBlock : BlockGroup cub sizes spillCount pairs state group) :
    (collectGrid cub sizes spillCount pairs state).base
        state.banks.dirtyCount group.1 =
      state.banks.existing
        (appendBank sizes.geometry state.banks group) := by
  rw [ScatterGrid.base, hBlock.target]
  rfl

theorem BlockGroup.pos
    (hBlock : BlockGroup cub sizes spillCount pairs state group) :
    0 < group.2 :=
  (batch_liveGroups cub sizes.geometry pairs).nonempty group
    hBlock.mem

theorem collectGrid_fits :
    GridFits (collectGrid cub sizes spillCount pairs state)
      state.banks.dirtyCount where
  sorted := (partitionGroups_spec cub pairs).1
  capacity := sizes.capacity_lt
  count _ _ hGroup := (blockGroup hGroup).count
  room _ _ hGroup := by
    have hBlock := blockGroup hGroup
    rw [hBlock.base]
    exact (room_of_groupFits hBlock.fits hBlock.pos).2

/- The bank of a group is the first that can take it. -/
theorem BlockGroup.firstFit
    (hBlock : BlockGroup cub sizes spillCount pairs state group)
    (hWords : WordsHold sizes.geometry pairs state) :
    firstFit sizes.geometry state.banks state.banks.held group.1
          (valuesOf pairs group.1).length =
        some
          (bestBuffer sizes.geometry state.banks group.1
            group.2).buffer ∧
      state.banks.held
          (appendBank sizes.geometry state.banks group) <
        2 ^ 32 := by
  have hBatch := batch_liveGroups cub sizes.geometry pairs
  have hCount := hBatch.count group hBlock.mem
  have hFirst := firstFit_of_groupFits hBlock.pos hBlock.fits
  have hRows : valuesOf pairs group.1 ≠ [] := by
    intro hNil
    rw [hNil] at hCount
    exact absurd hCount (Nat.ne_of_gt hBlock.pos)
  rw [hCount] at hFirst
  have hWord :=
    hWords hBlock.can group.1 (hBatch.inside group hBlock.mem)
      hRows _ hFirst
  rw [← hCount] at hFirst hWord ⊢
  exact ⟨firstFit_held hFirst hWord, hWord⟩

/- The places of a group's rows, behind the rows of its bank. -/
theorem BlockGroup.place
    (hBlock : BlockGroup cub sizes spillCount pairs state group)
    (hWord :
      state.banks.held
          (appendBank sizes.geometry state.banks group) <
        2 ^ 32)
    (row : Nat) :
    let grid := collectGrid cub sizes spillCount pairs state
    grid.place group.1
        (grid.base state.banks.dirtyCount group.1 + row) =
      appendBank sizes.geometry state.banks group *
          sizes.geometry.shardCapacity +
        (state.banks.held
            (appendBank sizes.geometry state.banks group) +
          row) := by
  intro grid
  rw [hBlock.base, Banks.existing_of_held hWord,
    ScatterGrid.place, hBlock.target]
  rfl

theorem BlockGroup.appends
    (hBlock : BlockGroup cub sizes spillCount pairs state group)
    (hWord :
      state.banks.held
          (appendBank sizes.geometry state.banks group) <
        2 ^ 32) :
    (collectGrid cub sizes spillCount pairs state).appends
        state.banks.dirtyCount group =
      (List.range group.2).map fun row =>
        (row,
          appendBank sizes.geometry state.banks group *
              sizes.geometry.shardCapacity +
            (state.banks.held
                (appendBank sizes.geometry state.banks group) +
              row)) := by
  unfold ScatterGrid.appends
  refine List.map_congr_left fun row _ => ?_
  rw [hBlock.place hWord]

variable {schedule : List Nat}

/- A group that every thread of its block appends in order. -/
theorem BlockGroup.appendedTo
    {block : Nat}
    (hBlock : BlockGroup cub sizes spillCount pairs state group)
    (hGroup :
      (collectGrid cub sizes spillCount pairs state).group? block =
        some group)
    (hWord :
      state.banks.held
          (appendBank sizes.geometry state.banks group) <
        2 ^ 32)
    (hScattered :
      GridScattered (collectGrid cub sizes spillCount pairs state)
        state.banks.dirtyCount state.survivors
        (run
          (collectGrid cub sizes spillCount pairs state).stepGrid
          state.start schedule).shared) :
    AppendedTo sizes.geometry state
      (collect cub sizes spillCount pairs state schedule) group.1
      (valuesOf pairs group.1)
      (appendBank sizes.geometry state.banks group) := by
  have hBatch := batch_liveGroups cub sizes.geometry pairs
  have hCount := hBatch.count group hBlock.mem
  have hRoom := room_of_groupFits hBlock.fits hBlock.pos
  rw [Banks.existing_of_held hWord] at hRoom
  have hCapacity := sizes.capacity_lt
  have hStores := hScattered.stores block group hGroup
  rw [hBlock.appends hWord] at hStores
  have hGrown := hScattered.dirty block group hGroup
  rw [hBlock.target] at hGrown
  have hBound :
      state.banks.dirtyCount
            (appendBank sizes.geometry state.banks group) +
          group.2 <
        2 ^ 32 := by
    have hHeld := hRoom.2
    unfold Banks.held at hHeld
    omega
  constructor
  case free => exact hRoom.1
  case room =>
    rw [← hCount]
    exact hRoom.2
  case dirty =>
    rw [← hCount]
    exact hGrown.eq hBound
  case stores =>
    rw [← hCount]
    exact hStores
  case rows =>
    have hStored :
        firstN
            (fun i =>
              (collect cub sizes spillCount pairs state
                    schedule).survivors
                (appendBank sizes.geometry state.banks group *
                    sizes.geometry.shardCapacity +
                  (state.banks.held
                      (appendBank sizes.geometry state.banks
                        group) +
                    i)))
            group.2 =
          firstN
            (fun i =>
              (((cub.sortPairs.run pairs)[
                      (prepareBatch cub sizes spillCount pairs
                            state).counts.shardOffsets
                          group.1 +
                        i]?).map
                  Prod.snd).getD emptyCandidate)
            group.2 :=
      firstN_congr fun i hLt => by
        rw [← hBlock.place hWord i]
        exact hScattered.stored collectGrid_fits hGroup hLt
    rcases prepareBatch_spec cub sizes spillCount pairs state with
      ⟨hRaised, -, hOffsets⟩
    have hRows :=
      hBatch.rows hOffsets (cub.sortPairs.perm pairs)
        (cub.sortPairs.sorted pairs) hBlock.mem
    rw [← hRaised.same] at hRows
    rw [← hStored] at hRows
    rw [← hCount]
    exact hRows

/- The bank of a group whose shard has rows. -/
theorem exists_group_of_rows
    {shard : Nat}
    (cub : PartitionCub)
    (spillCount : Nat)
    (hCan :
      CanCollect sizes.geometry pairs state state.banks.existing)
    (hShard : shard < sizes.geometry.shardCount)
    (hRows : valuesOf pairs shard ≠ []) :
    ∃ block group,
      (collectGrid cub sizes spillCount pairs state).group? block =
          some group ∧
        group.1 = shard := by
  have hBatch := batch_liveGroups cub sizes.geometry pairs
  rcases List.exists_mem_of_ne_nil _ hRows with ⟨row, hRow⟩
  rcases hBatch.covers _ (mem_valuesOf_iff.mp hRow) hShard with
    ⟨group, hMem, hKey⟩
  rcases exists_blockGroup hCan hMem with ⟨block, hGroup⟩
  exact ⟨block, group, hGroup, hKey⟩

/- Blocks that raise their dirty counts last leave what a batch owes. -/
theorem collected_of_scattered
    (hCan :
      CanCollect sizes.geometry pairs state state.banks.existing)
    (hWords : WordsHold sizes.geometry pairs state)
    (hScattered :
      GridScattered (collectGrid cub sizes spillCount pairs state)
        state.banks.dirtyCount state.survivors
        (run
          (collectGrid cub sizes spillCount pairs state).stepGrid
          state.start schedule).shared) :
    Collected sizes.geometry pairs state
      (collect cub sizes spillCount pairs state schedule) := by
  have hBatch := batch_liveGroups cub sizes.geometry pairs
  constructor
  case fatal => exact collect_fatal hCan
  case clean => rfl
  case appended =>
    intro shard hShard hRows
    rcases exists_group_of_rows cub spillCount hCan hShard
        hRows with
      ⟨block, group, hGroup, hKey⟩
    subst hKey
    have hBlock := blockGroup hGroup
    rcases hBlock.firstFit hWords with ⟨hFirst, hWord⟩
    exact
      ⟨_, hFirst, hBlock.appendedTo hGroup hWord hScattered⟩
  case idle =>
    intro shard hNone
    refine hScattered.booked.stores shard ?_
    intro block group hGroup hKey
    have hBlock := blockGroup hGroup
    have hInside := hBatch.inside group hBlock.mem
    have hCount := hBatch.count group hBlock.mem
    have hPos := hBlock.pos
    subst hKey
    rcases hNone with hPast | hNil
    · omega
    · rw [hNil, List.length_nil] at hCount
      omega
  case grown =>
    intro physical hGrown
    by_contra hNone
    refine hGrown (hScattered.booked.dirty physical ?_)
    intro block group hGroup hBank
    have hBlock := blockGroup hGroup
    rw [hBlock.target] at hBank
    exact
      hNone
        ⟨group.1, hBatch.inside group hBlock.mem, _,
          (hBlock.firstFit hWords).1, hBank.symm⟩
  case kept =>
    intro physical position hPosition hOutside
    refine hScattered.kept ?_
    intro block group hGroup row hRow hSame
    have hBlock := blockGroup hGroup
    have hWord := (hBlock.firstFit hWords).2
    have hAppended := hBlock.appendedTo hGroup hWord hScattered
    have hCount := hBatch.count group hBlock.mem
    have hRoom := hAppended.room
    have hDirty := hAppended.dirty
    rw [hBlock.place hWord] at hSame
    rcases eq_of_address_eq hPosition (by omega) hSame with
      ⟨hBank, hPlace⟩
    subst hBank
    have hHeld :
        (collect cub sizes spillCount pairs state
              schedule).banks.held
            (appendBank sizes.geometry state.banks group) =
          state.banks.held
              (appendBank sizes.geometry state.banks group) +
            (valuesOf pairs group.1).length := by
      unfold Banks.held
      rw [hDirty]
      exact (Nat.add_assoc _ _ _).symm
    omega

/- Without a bank for every shard no block runs. -/
theorem refused_of_not
    (hNot :
      ¬ CanCollect sizes.geometry pairs state
        state.banks.existing) :
    Refused state
      (collect cub sizes spillCount pairs state schedule) := by
  have hFlag :
      (collectGrid cub sizes spillCount pairs state).fatalFlag ≠
        0 :=
    mt collect_flag.mp hNot
  have hNone :
      ∀ block group,
        (collectGrid cub sizes spillCount pairs state).group?
            block ≠
          some group :=
    fun block group hGroup =>
      hFlag (group?_eq_some_iff.mp hGroup).1
  have hBooked :=
    booked_run (collectGrid cub sizes spillCount pairs state)
      state.banks.dirtyCount state.survivors schedule
  have hStores :
      ∀ shard,
        (collect cub sizes spillCount pairs state schedule).stores
            shard =
          [] :=
    fun shard =>
      hBooked.stores shard fun block group hGroup =>
        absurd hGroup (hNone block group)
  refine ⟨hFlag, funext fun i => ?_, rfl, funext fun physical => ?_,
    hStores⟩
  · rcases hBooked.written i with
      ⟨-, hKept⟩ | ⟨shard, row, hStore, -⟩
    · exact hKept
    · have hEmpty := hStores shard
      dsimp only [collect] at hEmpty
      unfold Collector.start at hEmpty
      rw [hEmpty] at hStore
      cases hStore
  · exact
      hBooked.dirty physical fun block group hGroup =>
        absurd hGroup (hNone block group)

/- A bank that is processing takes part in no append. -/
theorem Collected.processing
    {geometry : ShardGeometry}
    {result : CollectResult}
    {physical : Nat}
    (hCollected : Collected geometry pairs state result)
    (hProcessing : state.banks.processingFlag physical ≠ 0) :
    result.banks.dirtyCount physical =
        state.banks.dirtyCount physical ∧
      ∀ position < geometry.shardCapacity,
        result.survivors
            (physical * geometry.shardCapacity + position) =
          state.survivors
            (physical * geometry.shardCapacity + position) := by
  have hDirty :
      result.banks.dirtyCount physical =
        state.banks.dirtyCount physical := by
    by_contra hGrown
    rcases hCollected.grown physical hGrown with
      ⟨shard, -, buffer, hFirst, hBank⟩
    have hTake := canTake_of_firstFit hFirst
    rw [← hBank] at hTake
    exact hProcessing hTake.1
  refine ⟨hDirty, fun position hPosition => ?_⟩
  refine hCollected.kept physical position hPosition ?_
  have hHeld :
      result.banks.held physical = state.banks.held physical := by
    unfold Banks.held
    rw [hCollected.clean, hDirty]
  rw [hHeld]
  omega

theorem collectsRight_of_guarded
    (hEnds :
      CollectEnds cub sizes spillCount pairs state schedule)
    (hWords : WordsHold sizes.geometry pairs state)
    (hGuarded :
      Guarded
        (collectGrid cub sizes spillCount pairs state).stepGrid
        (GridRaisesLast
          (collectGrid cub sizes spillCount pairs state))
        state.start schedule) :
    CollectsRight sizes.geometry pairs state
      (collect cub sizes spillCount pairs state schedule) := by
  have hScattered :=
    gridScattered_of_guarded collectGrid_fits hEnds hGuarded
  by_cases hCan :
      CanCollect sizes.geometry pairs state state.banks.existing
  · have hCollected :=
      collected_of_scattered hCan hWords hScattered
    exact
      { collected := fun _ => hCollected
        refused := fun hNot => absurd (hCan.held hWords) hNot
        processing := fun _ hProcessing =>
          hCollected.processing hProcessing }
  · have hRefused :
        Refused state
          (collect cub sizes spillCount pairs state schedule) :=
      refused_of_not hCan
    exact
      { collected := fun hHeld => absurd hHeld.word hCan
        refused := fun _ => hRefused
        processing := fun physical _ =>
          ⟨congrFun hRefused.dirty physical, fun position _ =>
            congrFun hRefused.survivors _⟩ }

/- A right result leaves no flag clear that should be set. -/
theorem canCollect_of_right
    (hRight :
      CollectsRight sizes.geometry pairs state
        (collect cub sizes spillCount pairs state schedule)) :
    CanCollect sizes.geometry pairs state state.banks.existing →
      CanCollect sizes.geometry pairs state state.banks.held := by
  intro hCan
  by_contra hNot
  have hRaised := (hRight.refused hNot).raised
  rw [collect_fatal hCan] at hRaised
  exact hRaised hCan.1

/- A right result comes of banks that words can count. -/
theorem words_of_right
    (hRight :
      CollectsRight sizes.geometry pairs state
        (collect cub sizes spillCount pairs state schedule)) :
    WordsHold sizes.geometry pairs state := by
  intro hCan shard hShard hRows buffer hFirst
  have hBatch := batch_liveGroups cub sizes.geometry pairs
  have hCollected :=
    hRight.collected (canCollect_of_right hRight hCan)
  rcases hCollected.appended shard hShard hRows with
    ⟨other, hHeld, hAppended⟩
  by_cases hSame : other = buffer
  · have hRoom := hAppended.room
    have hCapacity := sizes.capacity_lt
    rw [hSame] at hRoom
    omega
  · -- No block raises the count of the bank that should grow.
    exfalso
    have hBooked :=
      booked_run (collectGrid cub sizes spillCount pairs state)
        state.banks.dirtyCount state.survivors schedule
    have hIdle :
        (collect cub sizes spillCount pairs state
              schedule).banks.dirtyCount
            (physicalShard shard other) =
          state.banks.dirtyCount (physicalShard shard other) := by
      refine hBooked.dirty _ ?_
      intro block group hGroup hBank
      have hBlock := blockGroup hGroup
      rw [hBlock.target] at hBank
      have hKey : group.1 = shard := by
        rw [← logicalShard_appendBank sizes.geometry state.banks
          group, hBank,
          logicalShard_physicalShard shard (lt_of_firstFit hHeld)]
      subst hKey
      have hCount := hBatch.count group hBlock.mem
      have hBest := firstFit_of_groupFits hBlock.pos hBlock.fits
      rw [hCount, hFirst] at hBest
      have hBuffer := Option.some.inj hBest
      unfold appendBank physicalShard at hBank
      rw [hCount, ← hBuffer] at hBank
      exact hSame (Nat.add_left_cancel hBank).symm
    have hDirty := hAppended.dirty
    rw [hIdle] at hDirty
    have hNone := List.eq_nil_of_length_eq_zero
      (Nat.add_eq_left.mp hDirty.symm)
    exact hRows hNone

theorem guarded_of_right
    (hEnds :
      CollectEnds cub sizes spillCount pairs state schedule)
    (hRight :
      CollectsRight sizes.geometry pairs state
        (collect cub sizes spillCount pairs state schedule)) :
    Guarded (collectGrid cub sizes spillCount pairs state).stepGrid
      (GridRaisesLast
        (collectGrid cub sizes spillCount pairs state))
      state.start schedule := by
  have hBatch := batch_liveGroups cub sizes.geometry pairs
  have hWords := words_of_right hRight
  refine guarded_of_stores collectGrid_fits hEnds ?_
  intro block group hGroup
  have hBlock := blockGroup hGroup
  rcases hBlock.firstFit hWords with ⟨hFirst, hWord⟩
  have hCount := hBatch.count group hBlock.mem
  have hRows : valuesOf pairs group.1 ≠ [] := by
    intro hNil
    rw [hNil] at hCount
    exact absurd hCount (Nat.ne_of_gt hBlock.pos)
  have hCollected :=
    hRight.collected (hBlock.can.held hWords)
  rcases hCollected.appended group.1
      (hBatch.inside group hBlock.mem) hRows with
    ⟨buffer, hBuffer, hAppended⟩
  rw [hFirst] at hBuffer
  have hStores := hAppended.stores
  rw [← Option.some.inj hBuffer, ← hCount] at hStores
  rw [hBlock.appends hWord]
  exact hStores

theorem collectsRight_iff_guarded
    (hEnds :
      CollectEnds cub sizes spillCount pairs state schedule) :
    CollectsRight sizes.geometry pairs state
        (collect cub sizes spillCount pairs state schedule) ↔
      WordsHold sizes.geometry pairs state ∧
        Guarded
          (collectGrid cub sizes spillCount pairs state).stepGrid
          (GridRaisesLast
            (collectGrid cub sizes spillCount pairs state))
          state.start schedule :=
  ⟨fun hRight =>
      ⟨words_of_right hRight, guarded_of_right hEnds hRight⟩,
    fun hBoth => collectsRight_of_guarded hEnds hBoth.1 hBoth.2⟩

/- Two rows of one shard are enough to lose one. -/
theorem exists_not_collectsRight
    {shard : Nat}
    (cub : PartitionCub)
    (spillCount : Nat)
    (hCan :
      CanCollect sizes.geometry pairs state state.banks.existing)
    (hShard : shard < sizes.geometry.shardCount)
    (hRows : 2 ≤ (valuesOf pairs shard).length) :
    ∃ schedule,
      CollectEnds cub sizes spillCount pairs state schedule ∧
        ¬ CollectsRight sizes.geometry pairs state
            (collect cub sizes spillCount pairs state
              schedule) := by
  have hBatch := batch_liveGroups cub sizes.geometry pairs
  have hSome : valuesOf pairs shard ≠ [] := by
    intro hNil
    rw [hNil] at hRows
    exact absurd hRows (by decide)
  rcases exists_group_of_rows cub spillCount hCan hShard
      hSome with
    ⟨block, group, hGroup, hKey⟩
  have hCount := hBatch.count group (blockGroup hGroup).mem
  have hEnds :
      CollectEnds cub sizes spillCount pairs state
        (gridSequential
          (collectGrid cub sizes spillCount pairs state)) :=
    complete_gridSequential collectGrid_fits state.survivors
  refine ⟨_, hEnds, fun hRight => ?_⟩
  refine
    not_guarded_gridSequential collectGrid_fits hGroup ?_
      state.survivors (guarded_of_right hEnds hRight)
  rw [hCount, hKey]
  exact hRows

/-
  Whatever the banks hold: a batch is collected right in every
  order of the threads exactly if the counts of the chosen banks
  are words and no shard gets a second row. Where shards get more
  rows, the runs that collect them right are those in which every
  block raises its dirty count last.
-/
theorem collect_right_iff
    (cub : PartitionCub)
    (sizes : CollectSizes)
    (spillCount : Nat)
    (pairs : List (Nat × CandidateMeta))
    (state : Collector) :
    ((∀ schedule,
          CollectEnds cub sizes spillCount pairs state schedule →
            CollectsRight sizes.geometry pairs state
              (collect cub sizes spillCount pairs state
                schedule)) ↔
        WordsHold sizes.geometry pairs state ∧
          (CanCollect sizes.geometry pairs state
              state.banks.existing →
            ∀ shard < sizes.geometry.shardCount,
              (valuesOf pairs shard).length ≤ 1)) ∧
      ∀ schedule,
        CollectEnds cub sizes spillCount pairs state schedule →
          (CollectsRight sizes.geometry pairs state
              (collect cub sizes spillCount pairs state
                schedule) ↔
            WordsHold sizes.geometry pairs state ∧
              Guarded
                (collectGrid cub sizes spillCount pairs
                  state).stepGrid
                (GridRaisesLast
                  (collectGrid cub sizes spillCount pairs state))
                state.start schedule) := by
  refine
    ⟨⟨?_, ?_⟩, fun schedule hEnds =>
      collectsRight_iff_guarded hEnds⟩
  · intro hAll
    have hEnds :
        CollectEnds cub sizes spillCount pairs state
          (gridSequential
            (collectGrid cub sizes spillCount pairs state)) :=
      complete_gridSequential collectGrid_fits state.survivors
    refine
      ⟨words_of_right (hAll _ hEnds), fun hCan shard hShard => ?_⟩
    by_contra hMore
    rcases exists_not_collectsRight cub spillCount hCan hShard
        (Nat.lt_of_not_le hMore) with
      ⟨schedule, hEnds, hNot⟩
    exact hNot (hAll schedule hEnds)
  · intro hBoth schedule hEnds
    refine collectsRight_of_guarded hEnds hBoth.1 ?_
    refine guarded_of_single ?_ _ schedule
    intro block group hGroup
    have hBlock := blockGroup hGroup
    have hBatch := batch_liveGroups cub sizes.geometry pairs
    rw [hBlock.count, hBatch.count group hBlock.mem]
    exact
      hBoth.2 hBlock.can group.1
        (hBatch.inside group hBlock.mem)

end Batch

/- One shard, with banks of 1024 places. -/
def wideSizes : CollectSizes where
  geometry := { shardCount := 1, shardCapacity := 1024 }
  stream4BatchCandidates := 1024
  globalSpillCapacity := 0
  appendToActiveSpill := false
  capacity_lt := by decide

/- Both banks are free and have the same rows. -/
def wideState : Collector where
  banks :=
    { cleanCount := fun _ => 100
      dirtyCount := fun _ => 20
      processingFlag := fun _ => 0
      writeBufferIndex := fun _ => 0 }
  survivors := fun _ => emptyCandidate
  fatal := { flag := 0, trace := none }

/- A batch of one shard, wider than a warp. -/
def wideBatch : List (Nat × CandidateMeta) :=
  List.replicate 64 (0, emptyCandidate)

theorem wideBatch_rows :
    (valuesOf wideBatch 0).length = 64 := by
  rw [length_valuesOf, wideBatch, List.countP_replicate]
  rfl

theorem collect_wideBatch_loses :
    ¬ ∀ schedule,
        CollectEnds foldPartitionCub wideSizes 0 wideBatch
            wideState schedule →
          CollectsRight wideSizes.geometry wideBatch wideState
            (collect foldPartitionCub wideSizes 0 wideBatch
              wideState schedule) := by
  intro hAll
  have hCan :
      CanCollect wideSizes.geometry wideBatch wideState
        wideState.banks.existing := by
    refine ⟨rfl, fun shard hShard _ => ⟨0, by decide, rfl, ?_⟩⟩
    have hZero : shard = 0 := Nat.lt_one_iff.mp hShard
    rw [hZero, wideBatch_rows]
    decide
  have hRows : 2 ≤ (valuesOf wideBatch 0).length := by
    rw [wideBatch_rows]
    decide
  rcases exists_not_collectsRight foldPartitionCub 0 hCan
      (by decide : 0 < 1) hRows with
    ⟨schedule, hEnds, hNot⟩
  exact hNot (hAll schedule hEnds)

end Stream3

end BeamSearch
