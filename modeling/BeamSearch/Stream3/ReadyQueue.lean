import BeamSearch.Stream3.Partition

/-
  Stream 3's queue of banks that are ready for Stream 4.

  For every logical shard without a processing bank the kernel
  looks at both banks in rotation and takes at most one. A bank
  is not taken when it is the only one with room for the receive
  reserve, unless the build is a flush.

  Main declarations:
    * `buildReadyShardQueue`
    * `selectReady_spec`
    * `buildReadyShardQueue_spec`
-/

namespace BeamSearch

namespace Stream3

----------------
-- Reserves
----------------

/- The sizes a build of the queue reads. -/
structure ReadyQueueSizes where
  geometry : ShardGeometry
  stream3BatchCandidates : Nat
  stream4TriggerCandidates : Nat
  forceDirtyFlush : Bool
  forceCleanFlush : Bool
  receiveReserve : Nat
deriving DecidableEq, Repr

/-
  The rows of a batch that a shard gets on average, rounded
  up.
-/
def averageShardWrite
    (geometry : ShardGeometry)
    (stream3BatchCandidates : Nat) : Nat :=
  if geometry.shardCount = 0 then
    stream3BatchCandidates
  else
    (stream3BatchCandidates + geometry.shardCount - 1) /
      geometry.shardCount

/-
  The room that is left for the next batch: the average and a
  margin.
-/
def writeReserve
    (geometry : ShardGeometry)
    (stream3BatchCandidates : Nat) : Nat :=
  let average :=
    averageShardWrite geometry stream3BatchCandidates
  let writeMargin := (average + 3) / 4
  let unclamped :=
    if average > uint32Max.toNat - writeMargin then
      uint32Max.toNat
    else
      average + writeMargin
  if unclamped < geometry.shardCapacity then unclamped
  else geometry.shardCapacity

/- From here on a bank is sorted before it is full. -/
def cleanReadyThreshold
    (geometry : ShardGeometry)
    (stream3BatchCandidates : Nat) : Nat :=
  let reserve := writeReserve geometry stream3BatchCandidates
  if reserve < geometry.shardCapacity then
    geometry.shardCapacity - reserve
  else
    0

----------------
-- Selecting A Bank
----------------

/- The bank of a shard that is ready, and why. -/
structure SelectedBank where
  buffer : Nat
  siblingAvailable : Nat
  total : Nat
  dirtyReady : Bool
deriving DecidableEq, Repr

/- One of the shard's banks is being sorted. -/
def logicalProcessing (banks : Banks) (shard : Nat) : Bool :=
  (List.range shardBufferCount).any fun buffer =>
    decide
      (banks.processingFlag (physicalShard shard buffer) ≠ 0)

/- The buffer that is written to. -/
def currentBuffer (banks : Banks) (shard : Nat) : Nat :=
  banks.writeBufferIndex shard % shardBufferCount

/- The most room a bank's siblings have. -/
def siblingAvailable
    (geometry : ShardGeometry)
    (banks : Banks)
    (shard buffer : Nat) : Nat :=
  (List.range shardBufferCount).foldl
    (fun best sibling =>
      if sibling = buffer then
        best
      else
        max best
          (banks.available geometry.shardCapacity
            (physicalShard shard sibling)))
    0

/-
  A bank with new rows is ready: by its rows, its room, or by
  force.
-/
def dirtyReady
    (sizes : ReadyQueueSizes)
    (banks : Banks)
    (physical : Nat) : Bool :=
  let dirty := banks.dirtyCount physical
  let nearCapacity :=
    decide
      (banks.existing physical ≥
        cleanReadyThreshold sizes.geometry
          sizes.stream3BatchCandidates)
  decide (dirty ≠ 0) &&
    (sizes.forceDirtyFlush ||
      decide (dirty ≥ sizes.stream4TriggerCandidates) ||
      nearCapacity)

/-
  A bank of clean rows is ready when it is near its capacity,
  or by force.
-/
def cleanReady
    (sizes : ReadyQueueSizes)
    (banks : Banks)
    (physical : Nat) : Bool :=
  let clean := banks.cleanCount physical
  decide (banks.dirtyCount physical = 0) &&
    decide (clean ≠ 0) &&
    (sizes.forceCleanFlush ||
      decide
        (clean ≥
          cleanReadyThreshold sizes.geometry
            sizes.stream3BatchCandidates))

/- Which of two ready banks is taken. -/
def betterCandidate
    (geometry : ShardGeometry)
    (current : Nat)
    (candidate : SelectedBank)
    (selected : Option SelectedBank) : Bool :=
  match selected with
  | none => true
  | some best =>
      let sameReady :=
        decide (candidate.dirtyReady = best.dirtyReady)
      let sameRoom :=
        decide
          (candidate.siblingAvailable = best.siblingAvailable)
      (candidate.dirtyReady && !best.dirtyReady) ||
        (sameReady &&
          decide
            (candidate.siblingAvailable >
              best.siblingAvailable)) ||
        (sameReady && sameRoom &&
          decide (candidate.buffer ≠ current) &&
          decide (best.buffer = current)) ||
        (sameReady && sameRoom &&
          decide (candidate.buffer = current) &&
          decide (best.buffer ≠ current) &&
          decide (best.total ≥ geometry.shardCapacity))

/- One bank of the rotation. -/
def selectReadyStep
    (sizes : ReadyQueueSizes)
    (banks : Banks)
    (shard : Nat)
    (selected : Option SelectedBank)
    (step : Nat) : Option SelectedBank :=
  let current := currentBuffer banks shard
  let buffer := (current + step) % shardBufferCount
  let physical := physicalShard shard buffer
  let isDirtyReady := dirtyReady sizes banks physical
  let available :=
    siblingAvailable sizes.geometry banks shard buffer
  let candidate : SelectedBank :=
    { buffer := buffer
      siblingAvailable := available
      total := banks.existing physical
      dirtyReady := isDirtyReady }
  if isDirtyReady = false ∧
      cleanReady sizes banks physical = false then
    selected
  else if sizes.forceDirtyFlush = false ∧
      sizes.forceCleanFlush = false ∧
      available < sizes.receiveReserve then
    selected
  else if
      betterCandidate sizes.geometry current candidate
        selected then
    some candidate
  else
    selected

/- The bank of a shard that is listed, if any. -/
def selectReady
    (sizes : ReadyQueueSizes)
    (banks : Banks)
    (shard : Nat) : Option SelectedBank :=
  if logicalProcessing banks shard = true then
    none
  else
    (List.range shardBufferCount).foldl
      (selectReadyStep sizes banks shard) none

----------------
-- The Next Write Bank
----------------

/- The bank that is written to next, and its room. -/
structure BestWriteBuffer where
  buffer : Nat
  available : Nat
deriving DecidableEq, Repr

/- The listed bank is not written to. -/
def bestWriteStep
    (geometry : ShardGeometry)
    (banks : Banks)
    (shard selectedBuffer : Nat)
    (best : Option BestWriteBuffer)
    (buffer : Nat) : Option BestWriteBuffer :=
  if buffer = selectedBuffer then
    best
  else
    let physical := physicalShard shard buffer
    if banks.processingFlag physical = 0 ∧
        banks.existing physical < geometry.shardCapacity then
      let available :=
        geometry.shardCapacity - banks.existing physical
      match best with
      | none => some { buffer := buffer, available := available }
      | some old =>
          if available > old.available ∨
              (available = old.available ∧
                buffer = currentBuffer banks shard) then
            some { buffer := buffer, available := available }
          else
            best
    else
      best

/- The other bank, where it has more room. -/
def nextWriteBuffer
    (geometry : ShardGeometry)
    (banks : Banks)
    (shard selectedBuffer : Nat) : Nat :=
  match
    (List.range shardBufferCount).foldl
      (bestWriteStep geometry banks shard selectedBuffer) none
  with
  | some best => best.buffer
  | none => banks.writeBufferIndex shard

----------------
-- Building The Queue
----------------

/- The banks after the kernel, and what it listed. -/
structure ReadyQueue where
  banks : Banks
  readyShardList : List Nat

/- One logical shard: take the selected bank, move the writes. -/
def buildReadyShard
    (sizes : ReadyQueueSizes)
    (queue : ReadyQueue)
    (shard : Nat) : ReadyQueue :=
  match selectReady sizes queue.banks shard with
  | none => queue
  | some selected =>
      let physical := physicalShard shard selected.buffer
      let banks :=
        { queue.banks with
          processingFlag :=
            Function.update queue.banks.processingFlag physical 1 }
      { banks :=
          { banks with
            writeBufferIndex :=
              Function.update banks.writeBufferIndex shard
                (nextWriteBuffer sizes.geometry banks shard
                  selected.buffer) }
        readyShardList := queue.readyShardList ++ [physical] }

/- The kernel starts a new list. -/
def buildReadyShardQueue
    (sizes : ReadyQueueSizes)
    (banks : Banks) : ReadyQueue :=
  (List.range sizes.geometry.shardCount).foldl
    (buildReadyShard sizes)
    { banks := banks, readyShardList := [] }

----------------
-- What A Selection Means
----------------

theorem physicalShard_lt
    {shard shardCount buffer : Nat}
    (hShard : shard < shardCount)
    (hBuffer : buffer < shardBufferCount) :
    physicalShard shard buffer < shardCount * shardBufferCount := by
  rw [physicalShard, shardBufferCount] at *
  omega

theorem logicalShard_physicalShard
    (shard : Nat)
    {buffer : Nat}
    (hBuffer : buffer < shardBufferCount) :
    logicalShard (physicalShard shard buffer) = shard := by
  rw [logicalShard, physicalShard, shardBufferCount] at *
  omega

/- Every bank is a buffer of its logical shard. -/
theorem physicalShard_logicalShard (physical : Nat) :
    physicalShard (logicalShard physical)
        (physical % shardBufferCount) = physical := by
  rw [logicalShard, physicalShard]
  exact Nat.div_add_mod' physical shardBufferCount

theorem mod_shardBufferCount_lt (n : Nat) :
    n % shardBufferCount < shardBufferCount :=
  Nat.mod_lt n (by decide)

/- The other bank of a logical shard. -/
def otherBuffer (buffer : Nat) : Nat :=
  1 - buffer

theorem otherBuffer_lt (buffer : Nat) :
    otherBuffer buffer < shardBufferCount := by
  rw [otherBuffer, shardBufferCount]
  omega

theorem siblingAvailable_eq
    (geometry : ShardGeometry)
    (banks : Banks)
    (shard : Nat)
    {buffer : Nat}
    (hBuffer : buffer < shardBufferCount) :
    siblingAvailable geometry banks shard buffer =
      banks.available geometry.shardCapacity
        (physicalShard shard (otherBuffer buffer)) := by
  rw [siblingAvailable]
  rw [shardBufferCount] at *
  have hCases : buffer = 0 ∨ buffer = 1 := by omega
  rcases hCases with rfl | rfl
  · simp [List.range_succ, otherBuffer]
  · simp [List.range_succ, otherBuffer]

theorem not_logicalProcessing_iff
    (banks : Banks)
    (shard : Nat) :
    logicalProcessing banks shard = false ↔
      ∀ buffer < shardBufferCount,
        banks.processingFlag (physicalShard shard buffer) = 0 := by
  simp [logicalProcessing]

/- What a taken bank satisfies. -/
structure Selectable
    (sizes : ReadyQueueSizes)
    (banks : Banks)
    (shard : Nat)
    (selected : SelectedBank) : Prop where
  buffer : selected.buffer < shardBufferCount
  rows :
    banks.cleanCount (physicalShard shard selected.buffer) +
        banks.dirtyCount (physicalShard shard selected.buffer) ≠
      0
  reserve :
    sizes.forceDirtyFlush = false →
      sizes.forceCleanFlush = false →
        sizes.receiveReserve ≤
          siblingAvailable sizes.geometry banks shard
            selected.buffer
  dirty :
    selected.dirtyReady =
      dirtyReady sizes banks
        (physicalShard shard selected.buffer)

/-
  One bank of the rotation keeps the selection or replaces it,
  and it is never replaced by a bank without ready dirty rows
  when it has some.
-/
theorem selectReadyStep_spec
    (sizes : ReadyQueueSizes)
    (banks : Banks)
    (shard : Nat)
    (selected : Option SelectedBank)
    (step : Nat)
    (hSelected :
      ∀ best, selected = some best →
        Selectable sizes banks shard best) :
    let result :=
      selectReadyStep sizes banks shard selected step
    (∀ best, result = some best →
      Selectable sizes banks shard best) ∧
      ((∃ best, selected = some best ∧ best.dirtyReady = true) →
        ∃ best, result = some best ∧ best.dirtyReady = true) := by
  intro result
  let buffer :=
    (currentBuffer banks shard + step) % shardBufferCount
  let candidate : SelectedBank :=
    { buffer := buffer
      siblingAvailable :=
        siblingAvailable sizes.geometry banks shard buffer
      total := banks.existing (physicalShard shard buffer)
      dirtyReady :=
        dirtyReady sizes banks (physicalShard shard buffer) }
  by_cases hReady :
      dirtyReady sizes banks (physicalShard shard buffer) =
          false ∧
        cleanReady sizes banks (physicalShard shard buffer) =
          false
  · have hResult : result = selected := if_pos hReady
    rw [hResult]
    exact ⟨hSelected, fun hDirty => hDirty⟩
  by_cases hReserve :
      sizes.forceDirtyFlush = false ∧
        sizes.forceCleanFlush = false ∧
        siblingAvailable sizes.geometry banks shard buffer <
          sizes.receiveReserve
  · have hResult : result = selected :=
      (if_neg hReady).trans (if_pos hReserve)
    rw [hResult]
    exact ⟨hSelected, fun hDirty => hDirty⟩
  have hCandidate :
      Selectable sizes banks shard candidate := by
    refine ⟨mod_shardBufferCount_lt _, ?_, ?_, rfl⟩
    · intro hNone
      apply hReady
      have hSum :
          banks.cleanCount (physicalShard shard buffer) +
            banks.dirtyCount (physicalShard shard buffer) = 0 :=
        hNone
      have hDirty :
          banks.dirtyCount (physicalShard shard buffer) = 0 := by
        omega
      have hClean :
          banks.cleanCount (physicalShard shard buffer) = 0 := by
        omega
      simp [dirtyReady, cleanReady, hDirty, hClean]
    · intro hDirtyFlush hCleanFlush
      by_contra hLess
      exact hReserve ⟨hDirtyFlush, hCleanFlush, not_le.mp hLess⟩
  by_cases hBetter :
      betterCandidate sizes.geometry (currentBuffer banks shard)
        candidate selected = true
  · have hResult : result = some candidate :=
      (if_neg hReady).trans
        ((if_neg hReserve).trans (if_pos hBetter))
    rw [hResult]
    refine ⟨?_, ?_⟩
    · intro best hBest
      rw [← Option.some.inj hBest]
      exact hCandidate
    · rintro ⟨best, hBest, hDirty⟩
      refine ⟨candidate, rfl, ?_⟩
      rw [hBest] at hBetter
      simp only [betterCandidate, hDirty, Bool.not_true,
        Bool.and_false, Bool.false_or, Bool.or_eq_true,
        Bool.and_eq_true, decide_eq_true_eq] at hBetter
      rcases hBetter with (⟨hSame, -⟩ | hRotate) | hFull
      · exact hSame
      · exact hRotate.1.1.1
      · exact hFull.1.1.1.1
  · have hResult : result = selected :=
      (if_neg hReady).trans
        ((if_neg hReserve).trans (if_neg hBetter))
    rw [hResult]
    exact ⟨hSelected, fun hDirty => hDirty⟩

theorem range_shardBufferCount :
    List.range shardBufferCount = [0, 1] := by
  decide

/- A taken bank's shard has no processing bank. -/
theorem selectReady_spec
    {sizes : ReadyQueueSizes}
    {banks : Banks}
    {shard : Nat}
    {selected : SelectedBank}
    (hSelect : selectReady sizes banks shard = some selected) :
    logicalProcessing banks shard = false ∧
      Selectable sizes banks shard selected := by
  rw [selectReady] at hSelect
  split_ifs at hSelect with hProcessing
  refine ⟨by simpa using hProcessing, ?_⟩
  rw [range_shardBufferCount] at hSelect
  have hFirst :=
    (selectReadyStep_spec sizes banks shard none 0 nofun).1
  have hSecond :=
    (selectReadyStep_spec sizes banks shard _ 1 hFirst).1
  exact hSecond selected hSelect

----------------
-- What A Build Does
----------------

/- Two states of the banks that agree on one logical shard. -/
structure AgreeAt
    (banks banks' : Banks)
    (shard : Nat) : Prop where
  clean :
    ∀ buffer < shardBufferCount,
      banks'.cleanCount (physicalShard shard buffer) =
        banks.cleanCount (physicalShard shard buffer)
  dirty :
    ∀ buffer < shardBufferCount,
      banks'.dirtyCount (physicalShard shard buffer) =
        banks.dirtyCount (physicalShard shard buffer)
  processing :
    ∀ buffer < shardBufferCount,
      banks'.processingFlag (physicalShard shard buffer) =
        banks.processingFlag (physicalShard shard buffer)
  writeBuffer :
    banks'.writeBufferIndex shard = banks.writeBufferIndex shard

/- A shard's selection reads the shard's own banks only. -/
theorem selectReady_congr
    (sizes : ReadyQueueSizes)
    {banks banks' : Banks}
    {shard : Nat}
    (hAgree : AgreeAt banks banks' shard) :
    selectReady sizes banks' shard =
      selectReady sizes banks shard := by
  have hProcessing :
      logicalProcessing banks' shard =
        logicalProcessing banks shard := by
    rw [Bool.eq_iff_iff, ← Bool.not_eq_false,
      ← Bool.not_eq_false, not_iff_not,
      not_logicalProcessing_iff, not_logicalProcessing_iff]
    constructor
    · intro hIdle buffer hBuffer
      rw [← hAgree.processing buffer hBuffer]
      exact hIdle buffer hBuffer
    · intro hIdle buffer hBuffer
      rw [hAgree.processing buffer hBuffer]
      exact hIdle buffer hBuffer
  have hCurrent :
      currentBuffer banks' shard = currentBuffer banks shard := by
    rw [currentBuffer, hAgree.writeBuffer, currentBuffer]
  have hExisting :
      ∀ buffer < shardBufferCount,
        banks'.existing (physicalShard shard buffer) =
          banks.existing (physicalShard shard buffer) := by
    intro buffer hBuffer
    rw [Banks.existing, hAgree.clean buffer hBuffer,
      hAgree.dirty buffer hBuffer, Banks.existing]
  have hSibling :
      ∀ buffer < shardBufferCount,
        siblingAvailable sizes.geometry banks' shard buffer =
          siblingAvailable sizes.geometry banks shard
            buffer := by
    intro buffer hBuffer
    have hOther := otherBuffer_lt buffer
    rw [siblingAvailable_eq _ _ _ hBuffer,
      siblingAvailable_eq _ _ _ hBuffer, Banks.available,
      Banks.available, hExisting _ hOther,
      hAgree.processing _ hOther]
  have hDirtyReady :
      ∀ buffer < shardBufferCount,
        dirtyReady sizes banks' (physicalShard shard buffer) =
          dirtyReady sizes banks
            (physicalShard shard buffer) := by
    intro buffer hBuffer
    rw [dirtyReady, hAgree.dirty buffer hBuffer,
      hExisting buffer hBuffer, dirtyReady]
  have hCleanReady :
      ∀ buffer < shardBufferCount,
        cleanReady sizes banks' (physicalShard shard buffer) =
          cleanReady sizes banks
            (physicalShard shard buffer) := by
    intro buffer hBuffer
    rw [cleanReady, hAgree.dirty buffer hBuffer,
      hAgree.clean buffer hBuffer, cleanReady]
  have hStep :
      ∀ selected step,
        selectReadyStep sizes banks' shard selected step =
          selectReadyStep sizes banks shard selected step := by
    intro selected step
    have hBuffer :=
      mod_shardBufferCount_lt (currentBuffer banks shard + step)
    rw [selectReadyStep, hCurrent, hSibling _ hBuffer,
      hExisting _ hBuffer, hDirtyReady _ hBuffer,
      hCleanReady _ hBuffer, selectReadyStep]
  rw [selectReady, selectReady, hProcessing,
    range_shardBufferCount]
  simp only [List.foldl_cons, List.foldl_nil, hStep]

/- The banks a build lists, one for every shard with a selection. -/
def readyBanks
    (sizes : ReadyQueueSizes)
    (banks : Banks)
    (shards : List Nat) : List Nat :=
  shards.filterMap fun shard =>
    (selectReady sizes banks shard).map fun selected =>
      physicalShard shard selected.buffer

theorem mem_readyBanks_iff
    {sizes : ReadyQueueSizes}
    {banks : Banks}
    {shards : List Nat}
    {physical : Nat} :
    physical ∈ readyBanks sizes banks shards ↔
      ∃ shard ∈ shards,
        ∃ selected,
          selectReady sizes banks shard = some selected ∧
            physicalShard shard selected.buffer = physical := by
  simp [readyBanks]

/- What is left of the banks while the first shards are done. -/
structure BuiltUpTo
    (sizes : ReadyQueueSizes)
    (banks : Banks)
    (n : Nat)
    (queue : ReadyQueue) : Prop where
  list :
    queue.readyShardList =
      readyBanks sizes banks (List.range n)
  clean : queue.banks.cleanCount = banks.cleanCount
  dirty : queue.banks.dirtyCount = banks.dirtyCount
  processing :
    ∀ physical,
      queue.banks.processingFlag physical =
        if physical ∈ readyBanks sizes banks (List.range n) then 1
        else banks.processingFlag physical
  writeBuffer :
    ∀ shard, n ≤ shard →
      queue.banks.writeBufferIndex shard =
        banks.writeBufferIndex shard

theorem logicalShard_lt_of_mem_readyBanks
    {sizes : ReadyQueueSizes}
    {banks : Banks}
    {n physical : Nat}
    (hMem : physical ∈ readyBanks sizes banks (List.range n)) :
    logicalShard physical < n := by
  rcases mem_readyBanks_iff.mp hMem with
    ⟨shard, hShard, selected, hSelect, rfl⟩
  rw [logicalShard_physicalShard shard
    (selectReady_spec hSelect).2.buffer]
  exact List.mem_range.mp hShard

theorem buildReadyShard_upTo
    {sizes : ReadyQueueSizes}
    {banks : Banks}
    {n : Nat}
    {queue : ReadyQueue}
    (hBuilt : BuiltUpTo sizes banks n queue) :
    BuiltUpTo sizes banks (n + 1)
      (buildReadyShard sizes queue n) := by
  have hAgree : AgreeAt banks queue.banks n := by
    refine ⟨?_, ?_, ?_, hBuilt.writeBuffer n le_rfl⟩
    · intro buffer _
      rw [hBuilt.clean]
    · intro buffer _
      rw [hBuilt.dirty]
    · intro buffer hBuffer
      have hNotMem :
          physicalShard n buffer ∉
            readyBanks sizes banks (List.range n) := by
        intro hMem
        have hLt := logicalShard_lt_of_mem_readyBanks hMem
        rw [logicalShard_physicalShard n hBuffer] at hLt
        exact lt_irrefl n hLt
      rw [hBuilt.processing, if_neg hNotMem]
  have hSelect := selectReady_congr sizes hAgree
  have hList :
      readyBanks sizes banks (List.range (n + 1)) =
        readyBanks sizes banks (List.range n) ++
          readyBanks sizes banks [n] := by
    rw [readyBanks, List.range_succ, List.filterMap_append]
    rfl
  rw [buildReadyShard, hSelect]
  cases hFound : selectReady sizes banks n with
  | none =>
      have hNone : readyBanks sizes banks [n] = [] := by
        simp [readyBanks, hFound]
      rw [hNone, List.append_nil] at hList
      refine ⟨?_, hBuilt.clean, hBuilt.dirty, ?_, ?_⟩
      · rw [hList]
        exact hBuilt.list
      · rw [hList]
        exact hBuilt.processing
      · intro shard hLe
        exact hBuilt.writeBuffer shard (by omega)
  | some selected =>
      have hOne :
          readyBanks sizes banks [n] =
            [physicalShard n selected.buffer] := by
        simp [readyBanks, hFound]
      rw [hOne] at hList
      refine ⟨?_, hBuilt.clean, hBuilt.dirty, ?_, ?_⟩
      · dsimp only
        rw [hList, hBuilt.list]
      · intro physical
        dsimp only
        rw [hList]
        by_cases hHere : physical = physicalShard n selected.buffer
        · subst hHere
          rw [Function.update_self, if_pos (by simp)]
        · rw [Function.update_of_ne hHere, hBuilt.processing]
          simp only [List.mem_append, List.mem_singleton, hHere,
            or_false]
      · intro shard hLe
        have hNe : shard ≠ n := by omega
        dsimp only
        rw [Function.update_of_ne hNe]
        exact hBuilt.writeBuffer shard (by omega)

/- A build lists one bank a shard and marks it as processing. -/
theorem buildReadyShardQueue_spec
    (sizes : ReadyQueueSizes)
    (banks : Banks) :
    BuiltUpTo sizes banks sizes.geometry.shardCount
      (buildReadyShardQueue sizes banks) := by
  rw [buildReadyShardQueue]
  induction sizes.geometry.shardCount with
  | zero =>
      refine ⟨rfl, rfl, rfl, ?_, fun _ _ => rfl⟩
      intro physical
      simp [readyBanks]
  | succ n ih =>
      rw [List.range_succ, List.foldl_append, List.foldl_cons,
        List.foldl_nil]
      exact buildReadyShard_upTo ih

end Stream3

end BeamSearch
