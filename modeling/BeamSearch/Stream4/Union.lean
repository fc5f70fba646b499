import BeamSearch.Stream4.Pass

/-
  The final union of the two banks of a logical shard.

  Both banks lie in one arena of twice the physical capacity.
  The union kernel sequence compacts, sorts and reduces the
  arena as one array and splits the resulting count over the
  two banks again.

  Main declarations:
    * `stream4FinalizeLogicalShardUnion`
    * `UnionResult`
    * `stream4FinalizeLogicalShardUnion_spec`
-/

namespace BeamSearch

open Cdf Compaction KeyedMin SegmentedReduce

namespace Stream4

----------------
-- The Kernel Sequence
----------------

/- The adjacent pair of banks of one logical shard. -/
structure LogicalShard where
  survivors : Nat → CandidateMeta
  clean : Nat → Nat
  dirty : Nat → Nat
  processing : Nat → Bool
  scoreHist : Nat → BankHistogram

/-
  The flag of a place: a clean row of its bank, within the
  threshold.
-/
def unionMark
    (input : Nat → CandidateMeta)
    (clean : Nat → Nat)
    (threshold : UInt32)
    (physicalCapacity : Nat)
    (i : Nat) : Nat :=
  if i < 2 * physicalCapacity then
    if i % physicalCapacity < clean (i / physicalCapacity) ∧
        (input i).scoreKey ≤ threshold then
      1
    else
      0
  else
    0

/- The first bank takes what it can hold, the second bank the rest. -/
def stream4SplitUnionCounts
    (total capacity : Nat)
    (shard : LogicalShard) : LogicalShard :=
  let first := if total < capacity then total else capacity
  { shard with
    clean :=
      Function.update (Function.update shard.clean 0 first) 1
        (total - first)
    dirty :=
      Function.update (Function.update shard.dirty 0 0) 1 0
    processing :=
      Function.update (Function.update shard.processing 0 false)
        1 false }

/- Publish the histogram of one bank of the pair. -/
def stream4PublishUnionBank
    (cub : Stream4Cub)
    (physicalCapacity physical : Nat)
    (state : Stream4Scratch × LogicalShard) :
    Stream4Scratch × LogicalShard :=
  let shard := state.2
  let published :=
    stream4WriteShardHistogram cub
      (fun i => shard.survivors (physical * physicalCapacity + i))
      (shard.clean physical) physicalCapacity state.1
      (shard.scoreHist physical)
  (published.1,
    { shard with
      processing :=
        Function.update shard.processing physical false
      scoreHist :=
        Function.update shard.scoreHist physical published.2 })

/- The greatest count that a sort takes. -/
def intMax : Nat :=
  2147483647

/-
  The union of both banks: flagged, compacted, sorted and
  reduced.
-/
def stream4FinalizeLogicalShardUnion
    (cub : Stream4Cub)
    (threshold : UInt32)
    (physicalCapacity sortItemBound : Nat)
    (scratch : Stream4Scratch)
    (shard : LogicalShard) :
    Except Stream4Error (Stream4Scratch × LogicalShard) :=
  if physicalCapacity = 0 ∨ physicalCapacity > intMax / 2 then
    .error .unionScratch
  else
    let capacity := 2 * physicalCapacity
    let sortItems :=
      if sortItemBound = 0 then capacity else sortItemBound
    if sortItems > capacity then
      .error .unionSortBound
    else if shard.clean 0 > physicalCapacity ∨
        shard.clean 1 > physicalCapacity then
      .error .trap
    else
      let blocks := blocksFor capacity
      let mark :=
        unionMark shard.survivors shard.clean threshold
          physicalCapacity
      let scratch := storeMarks mark capacity blocks scratch
      let scratch := stream4ScanBlockCounts blocks scratch
      let scratch :=
        stream4CompactThreshold shard.survivors capacity scratch
      if sortItemBound ≠ 0 ∧ scratch.scratchCount > sortItems then
        .error .trap
      else
        let scratch :=
          stream4SortReduce cub capacity sortItems capacity
            scratch
        let survivors :=
          stream4CompactValidUnique capacity scratch
            shard.survivors
        let shard :=
          stream4SplitUnionCounts scratch.scratchCount
            physicalCapacity { shard with survivors := survivors }
        let state :=
          stream4PublishUnionBank cub physicalCapacity 0
            (scratch, shard)
        .ok
          (stream4PublishUnionBank cub physicalCapacity 1 state)

----------------
-- The Rows Of The Pair
----------------

/- The clean rows of one bank of the pair. -/
def LogicalShard.bankRows
    (shard : LogicalShard)
    (physicalCapacity physical : Nat) : List CandidateMeta :=
  firstN
    (fun i => shard.survivors (physical * physicalCapacity + i))
    (shard.clean physical)

/- Filtering the reference union is deduplicating with the threshold. -/
theorem uniqueUnionReference_filter
    (a b : List CandidateMeta)
    (threshold : UInt32) :
    (uniqueUnionReference a b).filter
        (fun c => c.scoreKey ≤ threshold) =
      stream4ThresholdSortDedup (a ++ b) threshold := by
  apply eq_stream4ThresholdSortDedup
  · exact (stream4ThresholdSortDedup_pairwise _ _).filter _
  · intro c
    rw [List.mem_filter, uniqueUnionReference,
      mem_stream4ThresholdSortDedup_iff, decide_eq_true_iff]
    constructor
    · intro hMem
      rcases hMem with ⟨⟨hIn, -, hLeast⟩, hWithin⟩
      exact ⟨hIn, hWithin, hLeast⟩
    · intro hBest
      rcases hBest with ⟨hIn, hWithin, hLeast⟩
      exact ⟨⟨hIn, within_uint32Max c, hLeast⟩, hWithin⟩

theorem unionMark_first
    (input : Nat → CandidateMeta)
    (clean : Nat → Nat)
    (threshold : UInt32)
    {capacity i : Nat}
    (hLt : i < capacity) :
    unionMark input clean threshold capacity i ≠ 0 ↔
      i < clean 0 ∧ (input i).scoreKey ≤ threshold := by
  unfold unionMark
  rw [if_pos (by omega), Nat.mod_eq_of_lt hLt,
    Nat.div_eq_of_lt hLt]
  split_ifs with hKeep
  · simpa using hKeep
  · simpa using hKeep

theorem unionMark_second
    (input : Nat → CandidateMeta)
    (clean : Nat → Nat)
    (threshold : UInt32)
    {capacity i : Nat}
    (hLt : i < capacity) :
    unionMark input clean threshold capacity (capacity + i) ≠
        0 ↔
      i < clean 1 ∧
        (input (capacity + i)).scoreKey ≤ threshold := by
  have hMod : (capacity + i) % capacity = i := by
    rw [Nat.add_mod_left, Nat.mod_eq_of_lt hLt]
  have hDiv : (capacity + i) / capacity = 1 := by
    rw [Nat.add_div_left i (by omega), Nat.div_eq_of_lt hLt]
  unfold unionMark
  rw [if_pos (by omega), hMod, hDiv]
  split_ifs with hKeep
  · simpa using hKeep
  · simpa using hKeep

theorem unionMark_beyond
    (input : Nat → CandidateMeta)
    (clean : Nat → Nat)
    (threshold : UInt32)
    {capacity i : Nat}
    (hGe : 2 * capacity ≤ i) :
    unionMark input clean threshold capacity i = 0 := by
  rw [unionMark, if_neg (by omega)]

/- The marks keep the rows of both banks that lie within the threshold. -/
theorem kept_unionMark
    (shard : LogicalShard)
    (threshold : UInt32)
    {capacity : Nat}
    (hFirst : shard.clean 0 ≤ capacity)
    (hSecond : shard.clean 1 ≤ capacity) :
    kept
        (unionMark shard.survivors shard.clean threshold capacity)
        shard.survivors (256 * blocksFor (2 * capacity)) =
      (shard.bankRows capacity 0 ++
          shard.bankRows capacity 1).filter
        fun c => c.scoreKey ≤ threshold := by
  have hCover := le_blocksFor (2 * capacity)
  have hSplit :
      256 * blocksFor (2 * capacity) =
        capacity +
          (256 * blocksFor (2 * capacity) - capacity) := by
    omega
  rw [hSplit, kept_add, List.filter_append]
  congr 1
  · unfold LogicalShard.bankRows
    simp only [Nat.zero_mul, Nat.zero_add]
    apply kept_eq_filter hFirst
    intro i hLt
    rw [unionMark_first _ _ _ hLt, decide_eq_true_iff]
  · unfold LogicalShard.bankRows
    simp only [Nat.one_mul]
    apply kept_eq_filter (by omega)
    intro i _
    rw [decide_eq_true_iff]
    by_cases hLt : i < capacity
    · exact unionMark_second _ _ _ hLt
    · rw [unionMark_beyond _ _ _ (by omega)]
      have hNot : ¬ i < shard.clean 1 := by omega
      simp [hNot]

----------------
-- The Result
----------------

/- What the union owes the reference for rows `expected`. -/
structure UnionResult
    (shard out : LogicalShard)
    (physicalCapacity : Nat)
    (expected : List CandidateMeta) : Prop where
  rows :
    firstN out.survivors expected.length = expected
  banks :
    out.bankRows physicalCapacity 0 ++
      out.bankRows physicalCapacity 1 = expected
  first :
    out.clean 0 = min expected.length physicalCapacity
  second :
    out.clean 1 = expected.length - out.clean 0
  fits : out.clean 1 ≤ physicalCapacity
  unique : expected.Pairwise fun a b => a.hash < b.hash
  cleared :
    out.dirty 0 = 0 ∧ out.dirty 1 = 0 ∧
      out.processing 0 = false ∧ out.processing 1 = false
  published :
    (∀ physical < 2,
      (out.scoreHist physical).activeIndex =
        !(shard.scoreHist physical).activeIndex) ∧
    ∀ score < scoreBinCount,
      (out.scoreHist 0).committed score +
          (out.scoreHist 1).committed score =
        scoreHistogram expected score

theorem scoreHistogram_append
    (xs ys : List CandidateMeta)
    (score : Nat) :
    scoreHistogram (xs ++ ys) score =
      scoreHistogram xs score + scoreHistogram ys score := by
  unfold scoreHistogram
  split
  · exact histogram_append _ xs ys score
  · rfl

/- Splitting the count splits the rows without a gap. -/
theorem bankRows_split
    {shard : LogicalShard}
    {capacity : Nat}
    {rows : List CandidateMeta}
    (hRows : firstN shard.survivors rows.length = rows)
    (hFits : rows.length ≤ 2 * capacity)
    (hFirst : shard.clean 0 = min rows.length capacity)
    (hSecond : shard.clean 1 = rows.length - shard.clean 0) :
    shard.bankRows capacity 0 ++ shard.bankRows capacity 1 =
      rows := by
  unfold LogicalShard.bankRows
  simp only [Nat.zero_mul, Nat.zero_add, Nat.one_mul]
  by_cases hFull : capacity ≤ rows.length
  · have hZero : shard.clean 0 = capacity := by omega
    have hLength :
        rows.length = capacity + (rows.length - capacity) := by
      omega
    rw [hSecond, hZero, ← firstN_add, ← hLength]
    exact hRows
  · have hZero : shard.clean 0 = rows.length := by omega
    have hOne : shard.clean 1 = 0 := by omega
    rw [hOne, hZero, hRows]
    simp [firstN]

/-
  For every bound that covers the selected rows and fits the
  arena, the union leaves exactly the reference rows within the
  threshold.
-/
theorem stream4FinalizeLogicalShardUnion_result
    (cub : Stream4Cub)
    (threshold : UInt32)
    {physicalCapacity sortItemBound : Nat}
    (scratch : Stream4Scratch)
    (shard : LogicalShard)
    (hPositive : 0 < physicalCapacity)
    (hInt : physicalCapacity ≤ intMax / 2)
    (hFirst : shard.clean 0 ≤ physicalCapacity)
    (hSecond : shard.clean 1 ≤ physicalCapacity)
    (hScores :
      ∀ c ∈ shard.bankRows physicalCapacity 0 ++
          shard.bankRows physicalCapacity 1,
        c.scoreKey < uint32Max)
    (hBound :
      sortItemBound = 0 ∨
        shard.clean 0 + shard.clean 1 ≤ sortItemBound ∧
          sortItemBound ≤ 2 * physicalCapacity) :
    ∃ scratch' out,
      stream4FinalizeLogicalShardUnion cub threshold
          physicalCapacity sortItemBound scratch shard =
        .ok (scratch', out) ∧
      UnionResult shard out physicalCapacity
        ((uniqueUnionReference
            (shard.bankRows physicalCapacity 0)
            (shard.bankRows physicalCapacity 1)).filter
          fun c => c.scoreKey ≤ threshold) := by
  let rows :=
    shard.bankRows physicalCapacity 0 ++
      shard.bankRows physicalCapacity 1
  let capacity := 2 * physicalCapacity
  let sortItems :=
    if sortItemBound = 0 then capacity else sortItemBound
  let selected :=
    stream4CompactThreshold shard.survivors capacity
      (stream4ScanBlockCounts (blocksFor capacity)
        (storeMarks
          (unionMark shard.survivors shard.clean threshold
            physicalCapacity)
          capacity (blocksFor capacity) scratch))
  have hMark : ∀ i,
      unionMark shard.survivors shard.clean threshold
        physicalCapacity i ≤ 1 := by
    intro i
    unfold unionMark
    split_ifs <;> omega
  have hSelected :
      Selected selected
        (rows.filter fun c => c.scoreKey ≤ threshold) :=
    selected_of_mark shard.survivors scratch hMark
      (fun i hGe => unionMark_beyond _ _ _ hGe)
      (kept_unionMark shard threshold hFirst hSecond)
  have hRowsLength :
      rows.length = shard.clean 0 + shard.clean 1 := by
    simp [rows, LogicalShard.bankRows]
  have hFilterLength :=
    List.length_filter_le
      (fun c : CandidateMeta => decide (c.scoreKey ≤ threshold))
      rows
  have hSortItems :
      (rows.filter fun c => c.scoreKey ≤ threshold).length ≤
          sortItems ∧
        sortItems ≤ capacity := by
    simp only [sortItems, capacity]
    rcases hBound with hZero | ⟨hCovers, hInside⟩
    · rw [if_pos hZero]
      omega
    · split_ifs <;> omega
  rcases sortReduce_survivors cub shard.survivors hSelected
      hSortItems.1 hSortItems.2 hSortItems.2 with
    ⟨hSurvivors, hCount⟩
  rw [validOutputs_eq_oracle cub rows threshold _
    hScores] at hSurvivors
  let expected := stream4ThresholdSortDedup rows threshold
  let reduced :=
    stream4SortReduce cub capacity sortItems capacity selected
  let survivors :=
    stream4CompactValidUnique capacity reduced shard.survivors
  have hTotal : reduced.scratchCount = expected.length := by
    have hLength := congrArg List.length hSurvivors
    rw [length_firstN] at hLength
    exact hLength
  let split :=
    stream4SplitUnionCounts reduced.scratchCount
      physicalCapacity { shard with survivors := survivors }
  let middle :=
    stream4PublishUnionBank cub physicalCapacity 0
      (reduced, split)
  let final :=
    stream4PublishUnionBank cub physicalCapacity 1 middle
  have hRun :
      stream4FinalizeLogicalShardUnion cub threshold
          physicalCapacity sortItemBound scratch shard =
        .ok final := by
    have hGuard :
        ¬ (physicalCapacity = 0 ∨
          physicalCapacity > intMax / 2) := by
      omega
    have hArena : ¬ sortItems > capacity := by
      have hLe := hSortItems.2
      omega
    have hClean :
        ¬ (shard.clean 0 > physicalCapacity ∨
          shard.clean 1 > physicalCapacity) := by
      omega
    have hChecked :
        ¬ (sortItemBound ≠ 0 ∧
          selected.scratchCount > sortItems) := by
      rw [hSelected.count]
      have hLe := hSortItems.1
      omega
    unfold stream4FinalizeLogicalShardUnion
    rw [if_neg hGuard]
    refine (if_neg hArena).trans ?_
    rw [if_neg hClean]
    exact if_neg hChecked
  refine ⟨final.1, final.2, hRun, ?_⟩
  rw [uniqueUnionReference_filter]
  have hFinalRows :
      firstN final.2.survivors expected.length = expected := by
    rw [← hTotal]
    exact hSurvivors
  have hCleanZero :
      final.2.clean 0 = min expected.length physicalCapacity := by
    rw [← hTotal]
    change
      (if reduced.scratchCount < physicalCapacity then
        reduced.scratchCount else physicalCapacity) = _
    split_ifs <;> omega
  have hCleanOne :
      final.2.clean 1 = expected.length - final.2.clean 0 := by
    rw [← hTotal]
    rfl
  have hFits : expected.length ≤ capacity := by
    rw [← hTotal]
    exact hCount.trans hSortItems.2
  have hBanks :
      final.2.bankRows physicalCapacity 0 ++
          final.2.bankRows physicalCapacity 1 = expected :=
    bankRows_split hFinalRows hFits hCleanZero hCleanOne
  have hWord : physicalCapacity < 2 ^ 32 := by
    unfold intMax at hInt
    omega
  have hHistZero :=
    stream4WriteShardHistogram_committed cub
      (fun i => split.survivors (0 * physicalCapacity + i))
      reduced (split.scoreHist 0)
      (show split.clean 0 ≤ physicalCapacity by
        have hLe : final.2.clean 0 ≤ physicalCapacity := by
          omega
        exact hLe)
      hWord
  have hHistOne :=
    stream4WriteShardHistogram_committed cub
      (fun i => middle.2.survivors (1 * physicalCapacity + i))
      middle.1 (middle.2.scoreHist 1)
      (show middle.2.clean 1 ≤ physicalCapacity by
        have hLe : final.2.clean 1 ≤ physicalCapacity := by
          omega
        exact hLe)
      hWord
  exact
    { rows := hFinalRows
      banks := hBanks
      first := hCleanZero
      second := hCleanOne
      fits := by omega
      unique := stream4ThresholdSortDedup_pairwise rows threshold
      cleared := ⟨rfl, rfl, rfl, rfl⟩
      published := by
        refine ⟨?_, ?_⟩
        · intro physical hLt
          have hCases : physical = 0 ∨ physical = 1 := by omega
          rcases hCases with rfl | rfl
          · exact hHistZero.1
          · exact hHistOne.1
        · intro score hScore
          have hZero := hHistZero.2 score hScore
          have hOne := hHistOne.2 score hScore
          calc
            (final.2.scoreHist 0).committed score +
                (final.2.scoreHist 1).committed score =
              scoreHistogram
                  (final.2.bankRows physicalCapacity 0) score +
                scoreHistogram
                  (final.2.bankRows physicalCapacity 1) score :=
                congrArg₂ (· + ·) hZero hOne
            _ = scoreHistogram expected score := by
                rw [← scoreHistogram_append, hBanks] }

/-
  The union equals the reference for both banks whenever its
  guards pass: a physical capacity from one to half the integer
  range and a bound inside the arena. Otherwise it is rejected
  before any kernel runs.
-/
theorem stream4FinalizeLogicalShardUnion_spec
    (cub : Stream4Cub)
    (threshold : UInt32)
    (physicalCapacity sortItemBound : Nat)
    (scratch : Stream4Scratch)
    (shard : LogicalShard)
    (hFirst : shard.clean 0 ≤ physicalCapacity)
    (hSecond : shard.clean 1 ≤ physicalCapacity)
    (hScores :
      ∀ c ∈ shard.bankRows physicalCapacity 0 ++
          shard.bankRows physicalCapacity 1,
        c.scoreKey < uint32Max)
    (hBound :
      sortItemBound = 0 ∨
        shard.clean 0 + shard.clean 1 ≤ sortItemBound) :
    (physicalCapacity = 0 ∨ intMax / 2 < physicalCapacity →
      stream4FinalizeLogicalShardUnion cub threshold
          physicalCapacity sortItemBound scratch shard =
        .error .unionScratch) ∧
    (0 < physicalCapacity → physicalCapacity ≤ intMax / 2 →
      2 * physicalCapacity < sortItemBound →
      stream4FinalizeLogicalShardUnion cub threshold
          physicalCapacity sortItemBound scratch shard =
        .error .unionSortBound) ∧
    (0 < physicalCapacity → physicalCapacity ≤ intMax / 2 →
      sortItemBound ≤ 2 * physicalCapacity →
      ∃ scratch' out,
        stream4FinalizeLogicalShardUnion cub threshold
            physicalCapacity sortItemBound scratch shard =
          .ok (scratch', out) ∧
        UnionResult shard out physicalCapacity
          ((uniqueUnionReference
              (shard.bankRows physicalCapacity 0)
              (shard.bankRows physicalCapacity 1)).filter
            fun c => c.scoreKey ≤ threshold)) := by
  refine ⟨?_, ?_, ?_⟩
  · intro hGuard
    exact if_pos hGuard
  · intro hPositive hInt hAbove
    have hGuard :
        ¬ (physicalCapacity = 0 ∨
          physicalCapacity > intMax / 2) := by
      omega
    have hArena :
        (if sortItemBound = 0 then 2 * physicalCapacity
          else sortItemBound) > 2 * physicalCapacity := by
      rw [if_neg (by omega)]
      exact hAbove
    unfold stream4FinalizeLogicalShardUnion
    rw [if_neg hGuard]
    exact if_pos hArena
  · intro hPositive hInt hInside
    refine stream4FinalizeLogicalShardUnion_result cub threshold
      scratch shard hPositive hInt hFirst hSecond hScores ?_
    rcases hBound with hZero | hCovers
    · exact Or.inl hZero
    · exact Or.inr ⟨hCovers, hInside⟩

/- Two full banks of capacity one that hold rows of one hash. -/
def duplicatePair : LogicalShard :=
  { survivors := fun i =>
      if i = 0 then ⟨⟨1, 2⟩, 9, 10, 3⟩ else ⟨⟨1, 2⟩, 8, 10, 4⟩
    clean := fun _ => 1
    dirty := fun _ => 0
    processing := fun _ => false
    scoreHist := fun _ =>
      { slot := fun _ _ => 0, activeIndex := false } }

theorem stream4FinalizeLogicalShardUnion_duplicatePair :
    ∃ scratch' out,
      stream4FinalizeLogicalShardUnion hostCub 20 1 2 zeroScratch
          duplicatePair =
        .ok (scratch', out) ∧
      out.bankRows 1 0 ++ out.bankRows 1 1 =
        [⟨⟨1, 2⟩, 8, 10, 4⟩] := by
  have hSpec :=
    stream4FinalizeLogicalShardUnion_spec hostCub 20 1 2
      zeroScratch duplicatePair (by decide) (by decide)
      (by decide) (by decide)
  rcases hSpec.2.2 (by decide) (by decide) (by decide) with
    ⟨scratch', out, hRun, hResult⟩
  refine ⟨scratch', out, hRun, ?_⟩
  exact hResult.banks.trans (by decide)

/-
  A bound above the arena covers both banks and is rejected: the
  pair keeps its duplicate.
-/
theorem stream4FinalizeLogicalShardUnion_bound_above_arena :
    duplicatePair.clean 0 + duplicatePair.clean 1 ≤ 3 ∧
      duplicatePair.clean 0 ≤ 1 ∧ duplicatePair.clean 1 ≤ 1 ∧
      stream4FinalizeLogicalShardUnion hostCub 20 1 3
          zeroScratch duplicatePair =
        .error .unionSortBound := by
  refine ⟨by decide, by decide, by decide, ?_⟩
  rfl

end Stream4

end BeamSearch
