import BeamSearch.Stream3.ReadyQueue

/-
  What one append of Stream 3 does to the banks.

  Every shard's rows go to one bank that is not processing. An
  append overflows exactly when some shard's rows fit neither of
  its banks; then no row is written.

  Main declarations:
    * `groupsOf`
    * `bestBuffer_spec`
    * `partitionAppend_spec`
-/

namespace BeamSearch

namespace Stream3

----------------
-- Groups Of Rows
----------------

/- The shards that occur among some rows, with their counts. -/
def groupsOf
    (shardCount : Nat)
    (rows : List Nat) : List (Nat × Nat) :=
  ((List.range shardCount).map fun shard =>
    (shard, rows.count shard)).filter fun group =>
      group.2 ≠ 0

theorem mem_groupsOf_iff
    {shardCount : Nat}
    {rows : List Nat}
    {group : Nat × Nat} :
    group ∈ groupsOf shardCount rows ↔
      group.1 < shardCount ∧
        group.2 = rows.count group.1 ∧
        group.2 ≠ 0 := by
  rw [groupsOf, List.mem_filter, List.mem_map]
  constructor
  · rintro ⟨⟨shard, hShard, rfl⟩, hCount⟩
    exact ⟨List.mem_range.mp hShard, rfl,
      of_decide_eq_true hCount⟩
  · rintro ⟨hShard, hCount, hPos⟩
    exact ⟨⟨group.1, List.mem_range.mpr hShard,
      Prod.ext rfl hCount.symm⟩, decide_eq_true hPos⟩

theorem groupsOf_sorted
    (shardCount : Nat)
    (rows : List Nat) :
    (groupsOf shardCount rows).Pairwise
      fun a b => a.1 < b.1 := by
  apply List.Pairwise.filter
  rw [List.pairwise_map]
  exact List.pairwise_lt_range

----------------
-- The Chosen Bank
----------------

theorem bestBufferLoop_spec
    (available : Nat → Nat)
    (current rawCount : Nat)
    (steps : List Nat)
    (best : BestBuffer)
    (hBuffer : best.buffer < shardBufferCount)
    (hAvailable : best.available = available best.buffer) :
    let result :=
      bestBufferLoop available current rawCount steps best
    result.buffer < shardBufferCount ∧
      result.available = available result.buffer ∧
      ((∃ step ∈ steps,
        rawCount ≤
          available ((current + step) % shardBufferCount)) →
        rawCount ≤ result.available) := by
  induction steps generalizing best with
  | nil =>
      refine ⟨hBuffer, hAvailable, ?_⟩
      rintro ⟨step, hMem, -⟩
      exact absurd hMem List.not_mem_nil
  | cons step steps ih =>
      have hStep :=
        mod_shardBufferCount_lt (current + step)
      rw [bestBufferLoop]
      dsimp only
      split_ifs with hFits hMore
      · exact ⟨hStep, rfl, fun _ => hFits⟩
      · let candidate : BestBuffer :=
          { buffer := (current + step) % shardBufferCount
            available :=
              available ((current + step) % shardBufferCount) }
        have hRest : candidate.available = _ := rfl
        rcases ih candidate hStep hRest with ⟨hLt, hEq, hRest⟩
        refine ⟨hLt, hEq, ?_⟩
        rintro ⟨other, hMem, hRoom⟩
        rcases List.mem_cons.mp hMem with rfl | hTail
        · exact absurd hRoom hFits
        · exact hRest ⟨other, hTail, hRoom⟩
      · rcases ih best hBuffer hAvailable with ⟨hLt, hEq, hRest⟩
        refine ⟨hLt, hEq, ?_⟩
        rintro ⟨other, hMem, hRoom⟩
        rcases List.mem_cons.mp hMem with rfl | hTail
        · exact absurd hRoom hFits
        · exact hRest ⟨other, hTail, hRoom⟩

/- The chosen bank takes all rows when a bank of the shard can. -/
theorem bestBuffer_spec
    (geometry : ShardGeometry)
    (banks : Banks)
    (shard rawCount : Nat) :
    let best := bestBuffer geometry banks shard rawCount
    best.buffer < shardBufferCount ∧
      best.available =
        banks.available geometry.shardCapacity
          (physicalShard shard best.buffer) ∧
      ∀ buffer < shardBufferCount,
        rawCount ≤
            banks.available geometry.shardCapacity
              (physicalShard shard buffer) →
          rawCount ≤ best.available := by
  intro best
  let available := fun buffer =>
    banks.available geometry.shardCapacity
      (physicalShard shard buffer)
  rcases bestBufferLoop_spec available (currentBuffer banks shard)
      rawCount (List.range shardBufferCount)
      { buffer := currentBuffer banks shard
        available := available (currentBuffer banks shard) }
      (mod_shardBufferCount_lt _) rfl with
    ⟨hBuffer, hAvailable, hFits⟩
  refine ⟨hBuffer, hAvailable, ?_⟩
  intro buffer hLt hRoom
  apply hFits
  have hCurrent : currentBuffer banks shard < shardBufferCount :=
    mod_shardBufferCount_lt _
  refine ⟨(buffer + shardBufferCount -
      currentBuffer banks shard) % shardBufferCount,
    List.mem_range.mpr (mod_shardBufferCount_lt _), ?_⟩
  have hStep :
      (currentBuffer banks shard +
          (buffer + shardBufferCount -
            currentBuffer banks shard) % shardBufferCount) %
          shardBufferCount =
        buffer := by
    rw [shardBufferCount] at *
    omega
  rw [hStep]
  exact hRoom

theorem processingFlag_eq_zero_of_available
    {banks : Banks}
    {capacity physical : Nat}
    (hPos : 0 < banks.available capacity physical) :
    banks.processingFlag physical = 0 := by
  by_contra hProcessing
  rw [Banks.available, if_neg (fun hBoth => hProcessing hBoth.1)]
    at hPos
  exact lt_irrefl 0 hPos

theorem existing_add_available_le
    {banks : Banks}
    {capacity physical : Nat}
    (hFits : banks.existing physical ≤ capacity) :
    banks.existing physical +
        banks.available capacity physical ≤
      capacity := by
  rw [Banks.available]
  split_ifs <;> omega

----------------
-- One Append
----------------

/- The bank an append sends a group to. -/
def appendBank
    (geometry : ShardGeometry)
    (banks : Banks)
    (group : Nat × Nat) : Nat :=
  physicalShard group.1
    (bestBuffer geometry banks group.1 group.2).buffer

/- A group fits the bank it is sent to. -/
def GroupFits
    (geometry : ShardGeometry)
    (banks : Banks)
    (group : Nat × Nat) : Prop :=
  group.2 ≤ (bestBuffer geometry banks group.1 group.2).available

theorem logicalShard_appendBank
    (geometry : ShardGeometry)
    (banks : Banks)
    (group : Nat × Nat) :
    logicalShard (appendBank geometry banks group) = group.1 :=
  logicalShard_physicalShard group.1
    (bestBuffer_spec geometry banks group.1 group.2).1

/- What the prepare kernel leaves for the groups. -/
structure Prepared
    (geometry : ShardGeometry)
    (banks : Banks)
    (groups : List (Nat × Nat))
    (counts : PartitionCounts) : Prop where
  overflow :
    counts.doubleBufferOverflow = true ↔
      ∃ group ∈ groups, ¬ GroupFits geometry banks group
  target :
    ∀ group ∈ groups,
      counts.target group.1 = appendBank geometry banks group
  count :
    ∀ group ∈ groups,
      counts.shardCounts group.1 =
        min group.2
          (bestBuffer geometry banks group.1 group.2).available

theorem preparePartitionCounts_spec
    (geometry : ShardGeometry)
    (banks : Banks)
    {groups : List (Nat × Nat)}
    (hSorted : groups.Pairwise fun a b => a.1 < b.1)
    (hInside : ∀ group ∈ groups, group.1 < geometry.shardCount) :
    Prepared geometry banks groups
      (preparePartitionCounts geometry banks groups) := by
  rw [preparePartitionCounts]
  induction groups using List.reverseRecOn with
  | nil => exact ⟨by simp, by simp, by simp⟩
  | append_singleton groups last ih =>
      rw [List.pairwise_append] at hSorted
      have hPrepared :=
        ih hSorted.1 fun group hMem =>
          hInside group (List.mem_append_left _ hMem)
      have hLast : ¬ last.1 ≥ geometry.shardCount :=
        not_le.mpr (hInside last (by simp))
      have hNe :
          ∀ group ∈ groups, group.1 ≠ last.1 := fun group hMem =>
        Nat.ne_of_lt (hSorted.2.2 group hMem last (by simp))
      rw [List.foldl_append, List.foldl_cons, List.foldl_nil,
        preparePartitionGroup]
      dsimp only
      rw [if_neg hLast]
      have hBuffer :=
        (bestBuffer_spec geometry banks last.1 last.2).1
      constructor
      case overflow =>
        rw [Bool.or_eq_true, hPrepared.overflow,
          decide_eq_true_eq]
        have hOver :
            last.2 -
                  min last.2
                    (bestBuffer geometry banks last.1
                      last.2).available ≠ 0 ↔
              ¬ GroupFits geometry banks last := by
          rw [GroupFits]
          omega
        rw [hOver]
        simp only [List.mem_append, List.mem_singleton]
        constructor
        · rintro (⟨group, hMem, hNot⟩ | hNot)
          · exact ⟨group, Or.inl hMem, hNot⟩
          · exact ⟨last, Or.inr rfl, hNot⟩
        · rintro ⟨group, hMem | rfl, hNot⟩
          · exact Or.inl ⟨group, hMem, hNot⟩
          · exact Or.inr hNot
      case target =>
        intro group hMem
        rcases List.mem_append.mp hMem with hOld | hNew
        · have hTarget := hPrepared.target group hOld
          rw [PartitionCounts.target] at hTarget ⊢
          dsimp only
          rw [Function.update_of_ne (hNe group hOld)]
          exact hTarget
        · rw [List.mem_singleton.mp hNew]
          rw [PartitionCounts.target, appendBank]
          dsimp only
          rw [Function.update_self, Nat.mod_eq_of_lt hBuffer]
      case count =>
        intro group hMem
        rcases List.mem_append.mp hMem with hOld | hNew
        · dsimp only
          rw [Function.update_of_ne (hNe group hOld)]
          exact hPrepared.count group hOld
        · rw [List.mem_singleton.mp hNew]
          exact Function.update_self _ _ _

/- The rows an append without overflow adds to one bank. -/
def appendedRows
    (geometry : ShardGeometry)
    (banks : Banks)
    (groups : List (Nat × Nat))
    (physical : Nat) : Nat :=
  ((groups.filter fun group =>
    appendBank geometry banks group = physical).map
      Prod.snd).sum

theorem appendedRows_append
    (geometry : ShardGeometry)
    (banks : Banks)
    (groups : List (Nat × Nat))
    (last : Nat × Nat)
    (physical : Nat) :
    appendedRows geometry banks (groups ++ [last]) physical =
      appendedRows geometry banks groups physical +
        if appendBank geometry banks last = physical then last.2
        else 0 := by
  rw [appendedRows, List.filter_append, List.map_append,
    List.sum_append, appendedRows]
  congr 1
  by_cases hHere : appendBank geometry banks last = physical
  · simp [hHere]
  · simp [hHere]

/- The bank of a shard takes nothing from other shards. -/
theorem appendedRows_eq_zero
    {geometry : ShardGeometry}
    {banks : Banks}
    {groups : List (Nat × Nat)}
    {last : Nat × Nat}
    (hOther : ∀ group ∈ groups, group.1 ≠ last.1) :
    appendedRows geometry banks groups
        (appendBank geometry banks last) =
      0 := by
  have hNone :
      (groups.filter fun group =>
          appendBank geometry banks group =
            appendBank geometry banks last) =
        [] := by
    refine List.filter_eq_nil_iff.mpr fun group hMem hSame => ?_
    have hBank := of_decide_eq_true hSame
    refine hOther group hMem ?_
    rw [← logicalShard_appendBank geometry banks group, hBank,
      logicalShard_appendBank]
  rw [appendedRows, hNone]
  rfl

theorem foldl_scatterGroup
    {geometry : ShardGeometry}
    {banks : Banks}
    {counts : PartitionCounts}
    (dirtyCount : Nat → Nat)
    {groups : List (Nat × Nat)}
    (hInside : ∀ group ∈ groups, group.1 < geometry.shardCount)
    (hTarget :
      ∀ group ∈ groups,
        counts.target group.1 = appendBank geometry banks group)
    (hCount :
      ∀ group ∈ groups, counts.shardCounts group.1 = group.2)
    {physical : Nat}
    (hWord :
      dirtyCount physical +
          appendedRows geometry banks groups physical <
        2 ^ 32) :
    groups.foldl (scatterGroup geometry counts) dirtyCount
        physical =
      dirtyCount physical +
        appendedRows geometry banks groups physical := by
  induction groups using List.reverseRecOn with
  | nil => rfl
  | append_singleton groups last ih =>
      have hPart :=
        appendedRows_append geometry banks groups last physical
      have hLast : ¬ last.1 ≥ geometry.shardCount :=
        not_le.mpr (hInside last (by simp))
      rw [hPart] at hWord
      have hBefore :=
        ih (fun group hMem =>
            hInside group (List.mem_append_left _ hMem))
          (fun group hMem =>
            hTarget group (List.mem_append_left _ hMem))
          (fun group hMem =>
            hCount group (List.mem_append_left _ hMem))
          (by omega)
      rw [List.foldl_append, List.foldl_cons, List.foldl_nil,
        scatterGroup, hPart, if_neg hLast,
        hTarget last (by simp), hCount last (by simp)]
      by_cases hHere : appendBank geometry banks last = physical
      · rw [if_pos hHere] at hWord ⊢
        rw [← hHere] at hBefore hWord ⊢
        rw [Function.update_self, hBefore,
          Nat.mod_eq_of_lt (by omega)]
        omega
      · rw [if_neg hHere, Function.update_of_ne (Ne.symm hHere),
          hBefore]
        omega

/- What one append does to the banks. -/
structure Appended
    (geometry : ShardGeometry)
    (banks : Banks)
    (groups : List (Nat × Nat))
    (fatal : Bool)
    (result : AppendResult) : Prop where
  clean : result.banks.cleanCount = banks.cleanCount
  processing :
    result.banks.processingFlag = banks.processingFlag
  fatal :
    result.fatal = true ↔
      fatal = true ∨
        ∃ group ∈ groups, ¬ GroupFits geometry banks group
  stopped :
    result.fatal = true →
      result.banks.dirtyCount = banks.dirtyCount
  dirty :
    result.fatal = false →
      ∀ physical,
        banks.dirtyCount physical +
            appendedRows geometry banks groups physical <
          2 ^ 32 →
        result.banks.dirtyCount physical =
          banks.dirtyCount physical +
            appendedRows geometry banks groups physical

theorem partitionAppend_spec
    (geometry : ShardGeometry)
    (banks : Banks)
    {groups : List (Nat × Nat)}
    (fatal : Bool)
    (hSorted : groups.Pairwise fun a b => a.1 < b.1)
    (hInside : ∀ group ∈ groups, group.1 < geometry.shardCount) :
    Appended geometry banks groups fatal
      (partitionAppend geometry banks groups fatal) := by
  have hPrepared :=
    preparePartitionCounts_spec geometry banks hSorted hInside
  have hFatal :
      (fatal ||
          (preparePartitionCounts geometry banks
            groups).doubleBufferOverflow) = true ↔
        fatal = true ∨
          ∃ group ∈ groups, ¬ GroupFits geometry banks group := by
    rw [Bool.or_eq_true, hPrepared.overflow]
  rw [partitionAppend]
  by_cases hStop :
      (fatal ||
        (preparePartitionCounts geometry banks
          groups).doubleBufferOverflow) = true
  · rw [if_pos hStop]
    exact ⟨rfl, rfl, iff_of_true rfl (hFatal.mp hStop),
      fun _ => rfl, fun hNot => absurd hNot (by simp)⟩
  · rw [if_neg hStop]
    have hFits :
        ∀ group ∈ groups, GroupFits geometry banks group := by
      intro group hMem
      by_contra hNot
      exact hStop (hFatal.mpr (Or.inr ⟨group, hMem, hNot⟩))
    refine ⟨rfl, rfl,
      iff_of_false Bool.false_ne_true fun hOver =>
        hStop (hFatal.mpr hOver),
      fun hNot => absurd hNot (by simp), ?_⟩
    intro _ physical hWord
    refine
      foldl_scatterGroup banks.dirtyCount hInside
        hPrepared.target ?_ hWord
    intro group hMem
    rw [hPrepared.count group hMem]
    exact min_eq_left (hFits group hMem)

end Stream3

end BeamSearch
