import BeamSearch.Stream4.Kernels
import BeamSearch.Stream4.Oracle

/-
  The Stream 4 GPU pass computes the host oracle.

  The two compactions filter, the padded sort and reduction
  leave the best candidate of every hash in hash order, and the
  published histogram counts the survivors by score. Padding
  rows share the sentinel hash with real rows but rank below
  every valid one.

  Main declarations:
    * `stream4BestCandidate_selects`
    * `survivors_eq_oracle`
    * `stream4WriteShardHistogram_committed`
    * `stream4Pass_eq_oracle`
-/

namespace BeamSearch

open Cdf Compaction KeyedMin SegmentedReduce

namespace Stream4

variable {rows : List CandidateMeta} {capacity : Nat} {scratch : Stream4Scratch}

----------------
-- The Reduction Operator
----------------

/- The operator returns one of its arguments, of least rank. -/
theorem stream4BestCandidate_selects (a b : CandidateMeta) :
    (stream4BestCandidate a b = a ∧ a.rank ≤ b.rank) ∨
      (stream4BestCandidate a b = b ∧ b.rank ≤ a.rank) := by
  have hParentA := a.parentIdx.toNat_lt
  have hParentB := b.parentIdx.toNat_lt
  have hRouteA := a.routePacked.toNat_lt
  have hRouteB := b.routePacked.toNat_lt
  unfold stream4BestCandidate CandidateMeta.rank
  split
  case isTrue hScore =>
    have hNe : a.scoreKey.toNat ≠ b.scoreKey.toNat :=
      fun hEq => hScore (UInt32.toNat_inj.mp hEq)
    split
    case isTrue hLt =>
      rw [UInt32.lt_iff_toNat_lt] at hLt
      exact Or.inl ⟨rfl, by omega⟩
    case isFalse hLt =>
      rw [UInt32.lt_iff_toNat_lt] at hLt
      exact Or.inr ⟨rfl, by omega⟩
  case isFalse hScore =>
    rw [not_not.mp hScore]
    split
    case isTrue hParent =>
      have hNe : a.parentIdx.toNat ≠ b.parentIdx.toNat :=
        fun hEq => hParent (UInt64.toNat_inj.mp hEq)
      split
      case isTrue hLt =>
        rw [UInt64.lt_iff_toNat_lt] at hLt
        exact Or.inl ⟨rfl, by omega⟩
      case isFalse hLt =>
        rw [UInt64.lt_iff_toNat_lt] at hLt
        exact Or.inr ⟨rfl, by omega⟩
    case isFalse hParent =>
      rw [not_not.mp hParent]
      split
      case isTrue hLe =>
        rw [UInt32.le_iff_toNat_le] at hLe
        exact Or.inl ⟨rfl, by omega⟩
      case isFalse hLe =>
        rw [UInt32.le_iff_toNat_le] at hLe
        exact Or.inr ⟨rfl, by omega⟩

----------------
-- Sort And Reduction Of The Padded Rows
----------------

/- A row under its hash, as the sort sees it. -/
def keyed (c : CandidateMeta) : Hash128 × CandidateMeta :=
  (c.hash, c)

/- The rows handed to the sort: the selected ones and padding. -/
def padded
    (rows : List CandidateMeta)
    (padding : Nat) : List (Hash128 × CandidateMeta) :=
  (rows ++ List.replicate padding stream4InvalidCandidate).map
    keyed

/- The row is not the padding's. -/
def isValid (c : CandidateMeta) : Bool :=
  c.scoreKey ≠ uint32Max

theorem mem_padded
    {padding : Nat}
    {p : Hash128 × CandidateMeta}
    (hMem : p ∈ padded rows padding) :
    p.1 = p.2.hash ∧
      (p.2 ∈ rows ∨ p.2 = stream4InvalidCandidate) := by
  rcases List.mem_map.mp hMem with ⟨c, hC, rfl⟩
  refine ⟨rfl, ?_⟩
  rcases List.mem_append.mp hC with hRow | hPad
  · exact Or.inl hRow
  · exact Or.inr (List.eq_of_mem_replicate hPad)

theorem keyed_mem_padded
    (padding : Nat)
    {c : CandidateMeta}
    (hMem : c ∈ rows) :
    (c.hash, c) ∈ padded rows padding :=
  List.mem_map.mpr ⟨c, List.mem_append_left _ hMem, rfl⟩

/- What the reduction outputs for the padded rows. -/
def reducedPadded
    (cub : Stream4Cub)
    (rows : List CandidateMeta)
    (padding : Nat) : List (Hash128 × CandidateMeta) :=
  cub.hashReduceByKey.run
    (cub.hashSortPairs.run (padded rows padding))

/-
  Output keys increase, every output is a least padded row of
  its hash, and every padded row's hash has an output.
-/
theorem reducedPadded_spec
    (cub : Stream4Cub)
    (rows : List CandidateMeta)
    (padding : Nat) :
    ((reducedPadded cub rows padding).Pairwise
        fun p q => p.1 < q.1) ∧
      (∀ p ∈ reducedPadded cub rows padding,
        p ∈ padded rows padding ∧
          ∀ c, (p.1, c) ∈ padded rows padding →
            p.2.rank ≤ c.rank) ∧
      ∀ p ∈ padded rows padding, ∃ c,
        (p.1, c) ∈ reducedPadded cub rows padding := by
  have hPerm := cub.hashSortPairs.perm (padded rows padding)
  have hRuns :=
    (cub.hashReduceByKey.reduces _).of_sorted
      (cub.hashSortPairs.sorted (padded rows padding))
  rcases hRuns with ⟨hStrict, hFolds, hCovers⟩
  refine ⟨hStrict, ?_, ?_⟩
  · intro p hMem
    rcases (hFolds p hMem).least stream4BestCandidate_selects with
      ⟨hValue, hLeast⟩
    refine ⟨hPerm.mem_iff.mp (mem_valuesOf_iff.mp hValue), ?_⟩
    intro c hC
    exact hLeast c (mem_valuesOf_iff.mpr (hPerm.mem_iff.mpr hC))
  · intro p hMem
    exact hCovers p (hPerm.mem_iff.mpr hMem)

/- The valid outputs of the reduction, in order. -/
def validOutputs
    (cub : Stream4Cub)
    (rows : List CandidateMeta)
    (padding : Nat) : List CandidateMeta :=
  ((reducedPadded cub rows padding).map Prod.snd).filter isValid

theorem validOutputs_pairwise
    (cub : Stream4Cub)
    (rows : List CandidateMeta)
    (padding : Nat) :
    (validOutputs cub rows padding).Pairwise
      fun a b => a.hash < b.hash := by
  rcases reducedPadded_spec cub rows padding with
    ⟨hStrict, hLeast, -⟩
  unfold validOutputs
  apply List.Pairwise.filter
  rw [List.pairwise_map]
  refine hStrict.imp_of_mem ?_
  intro p q hP hQ hLt
  rw [← (mem_padded (hLeast p hP).1).1,
    ← (mem_padded (hLeast q hQ).1).1]
  exact hLt

/-
  Padding never wins against a valid row, so the valid outputs
  are the oracle's rows, whatever the amount of padding.
-/
theorem validOutputs_eq_oracle
    (cub : Stream4Cub)
    (rows : List CandidateMeta)
    (threshold : UInt32)
    (padding : Nat)
    (hScores : ∀ c ∈ rows, c.scoreKey < uint32Max) :
    validOutputs cub
        (rows.filter fun c => c.scoreKey ≤ threshold) padding =
      stream4ThresholdSortDedup rows threshold := by
  let selected := rows.filter fun c => c.scoreKey ≤ threshold
  rcases reducedPadded_spec cub selected padding with
    ⟨-, hLeast, hCovers⟩
  apply eq_stream4ThresholdSortDedup
    (validOutputs_pairwise cub selected padding)
  intro c
  constructor
  · intro hMem
    rcases List.mem_filter.mp hMem with ⟨hOut, hValid⟩
    rcases List.mem_map.mp hOut with ⟨p, hP, rfl⟩
    rcases hLeast p hP with ⟨hPadded, hRank⟩
    rcases mem_padded hPadded with ⟨hKey, hRow | hPad⟩
    · rcases List.mem_filter.mp hRow with ⟨hIn, hWithin⟩
      have hLe : p.2.scoreKey ≤ threshold :=
        of_decide_eq_true hWithin
      refine ⟨hIn, hLe, ?_⟩
      intro b hB hHash
      by_contra hNot
      have hLt : b.rank < p.2.rank := not_le.mp hNot
      have hScore : b.scoreKey ≤ threshold :=
        UInt32.le_trans
          (CandidateMeta.scoreKey_le_of_rank_le hLt.le) hLe
      have hSelected : b ∈ selected :=
        List.mem_filter.mpr ⟨hB, decide_eq_true hScore⟩
      have hKeyed := keyed_mem_padded padding hSelected
      rw [hHash, ← hKey] at hKeyed
      exact hNot (hRank b hKeyed)
    · rw [hPad] at hValid
      exact absurd hValid (by decide)
  · intro hBest
    rcases hBest with ⟨hIn, hWithin, hLeastRow⟩
    have hSelected : c ∈ selected :=
      List.mem_filter.mpr ⟨hIn, decide_eq_true hWithin⟩
    have hKeyed := keyed_mem_padded padding hSelected
    rcases hCovers _ hKeyed with ⟨v, hV⟩
    rcases hLeast _ hV with ⟨hPadded, hRank⟩
    have hLe : v.rank ≤ c.rank := hRank c hKeyed
    rcases mem_padded hPadded with ⟨hKey, hRow | hPad⟩
    · have hRowIn := (List.mem_filter.mp hRow).1
      have hEq : v = c :=
        CandidateMeta.eq_of_hash_of_rank hKey.symm
          (le_antisymm hLe (hLeastRow v hRowIn hKey.symm))
      subst hEq
      refine List.mem_filter.mpr ⟨?_, ?_⟩
      · exact List.mem_map.mpr ⟨_, hV, rfl⟩
      · have hNe : v.scoreKey ≠ uint32Max := fun hEq => by
          have hLt := hScores v hIn
          rw [hEq] at hLt
          exact absurd hLt (UInt32.lt_irrefl _)
        exact decide_eq_true hNe
    · have hScore :=
        CandidateMeta.scoreKey_le_of_rank_le hLe
      have hLt := hScores c hIn
      rw [show v = stream4InvalidCandidate from hPad] at hScore
      exact absurd hLt (UInt32.not_lt.mpr hScore)

----------------
-- The Compactions
----------------

theorem le_blocksFor (items : Nat) :
    items ≤ 256 * blocksFor items := by
  unfold blocksFor
  split_ifs <;> omega

/- Scanning the block counts reads the marks back. -/
theorem loadMark_storeMarks
    {mark : Nat → Nat}
    (blocks : Nat)
    (scratch : Stream4Scratch)
    (hBeyond : ∀ i, capacity ≤ i → mark i = 0) :
    loadMark
        (stream4ScanBlockCounts blocks
          (storeMarks mark capacity blocks scratch))
        capacity = mark := by
  funext i
  by_cases hLt : i < capacity
  · simp [loadMark, stream4ScanBlockCounts, storeMarks, hLt]
  · rw [hBeyond i (not_lt.mp hLt)]
    simp [loadMark, hLt]

/- Stored marks, once scanned, compact to the values they keep. -/
theorem compact_storeMarks
    {α : Type}
    {mark : Nat → Nat}
    (blocks : Nat)
    (scratch : Stream4Scratch)
    (value output : Nat → α)
    (hMark : ∀ i, mark i ≤ 1)
    (hBeyond : ∀ i, capacity ≤ i → mark i = 0) :
    let scanned :=
      stream4ScanBlockCounts blocks
        (storeMarks mark capacity blocks scratch)
    let keep := loadMark scanned capacity
    scanned.scratchCount =
        (kept mark value (256 * blocks)).length ∧
      firstN
          (scatter keep (compactDest keep scanned.blockOffsets)
            value output (256 * blocks))
          scanned.scratchCount =
        kept mark value (256 * blocks) := by
  intro scanned keep
  have hKeep : keep = mark :=
    loadMark_storeMarks blocks scratch hBeyond
  have hCompact :=
    firstN_compact
      (storeMarks mark capacity blocks scratch).blockCounts
      scratch.blockOffsets value output hMark
      (fun block hLt => if_pos hLt)
  rw [hKeep]
  refine ⟨hCompact.1, ?_⟩
  have hCount : scanned.scratchCount =
      (kept mark value (256 * blocks)).length := hCompact.1
  rw [hCount]
  exact hCompact.2

/- What the first compaction leaves: the rows within the threshold. -/
structure Selected
    (scratch : Stream4Scratch)
    (rows : List CandidateMeta) : Prop where
  count : scratch.scratchCount = rows.length
  keys : firstN scratch.sortKey rows.length =
    rows.map CandidateMeta.hash
  values : firstN scratch.sortValue rows.length = rows

/- Compacting marked input rows selects the rows the mark keeps. -/
theorem selected_of_mark
    {mark : Nat → Nat}
    (input : Nat → CandidateMeta)
    (scratch : Stream4Scratch)
    (hMark : ∀ i, mark i ≤ 1)
    (hBeyond : ∀ i, capacity ≤ i → mark i = 0)
    (hKept : kept mark input (256 * blocksFor capacity) = rows) :
    Selected
      (stream4CompactThreshold input capacity
        (stream4ScanBlockCounts (blocksFor capacity)
          (storeMarks mark capacity (blocksFor capacity)
            scratch)))
      rows := by
  have hValues :=
    compact_storeMarks (blocksFor capacity) scratch input
      scratch.sortValue hMark hBeyond
  have hKeys :=
    compact_storeMarks (blocksFor capacity) scratch
      (fun i => (input i).hash) scratch.sortKey hMark hBeyond
  have hHashes :
      kept mark (fun i => (input i).hash)
          (256 * blocksFor capacity) =
        rows.map CandidateMeta.hash := by
    rw [← hKept]
    simp [kept, Function.comp_def]
  rw [hKept] at hValues
  rw [hHashes, List.length_map] at hKeys
  refine ⟨hValues.1, ?_, ?_⟩
  · rw [← hKeys.1]
    exact hKeys.2
  · rw [← hValues.1]
    exact hValues.2

/- The rows within the threshold stand in front. -/
theorem stream4Select_selected
    (threshold : UInt32)
    (capacity : Nat)
    (scratch : Stream4Scratch)
    (bank : ShardBank)
    (hFits : bank.cleanCount + bank.dirtyCount ≤ capacity) :
    Selected (stream4Select threshold capacity scratch bank)
      (bank.rows.filter fun c => c.scoreKey ≤ threshold) := by
  apply selected_of_mark
  · intro i
    unfold thresholdMark
    split_ifs <;> omega
  · intro i hGe
    rw [thresholdMark, if_neg (by omega)]
  · apply kept_eq_filter
      (hFits.trans (le_blocksFor capacity))
    intro i _
    unfold thresholdMark
    split_ifs with hCapacity hKeep
    · simpa using hKeep
    · simpa using hKeep
    · have hOutside :
          ¬ i < bank.cleanCount + bank.dirtyCount := by
        omega
      simp [hOutside]

----------------
-- From The Selected Rows To The Survivors
----------------

/- Padding fills the sort's input behind the selected rows. -/
theorem fillSortTail_pairs
    {tailItems sortItems : Nat}
    (hSelected : Selected scratch rows)
    (hFits : rows.length ≤ sortItems)
    (hTail : sortItems ≤ tailItems) :
    firstN
        (fun i =>
          ((stream4FillSortTail tailItems scratch).sortKey i,
            (stream4FillSortTail tailItems scratch).sortValue i))
        sortItems =
      padded rows (sortItems - rows.length) := by
  have hSplit :
      sortItems = rows.length + (sortItems - rows.length) := by
    omega
  unfold padded
  rw [hSplit, firstN_add, List.map_append, Nat.add_sub_cancel_left]
  congr 1
  · apply List.ext_getElem?
    intro i
    by_cases hLt : i < rows.length
    · have hKey := getElem?_firstN scratch.sortKey hLt
      have hValue := getElem?_firstN scratch.sortValue hLt
      rw [hSelected.keys] at hKey
      rw [hSelected.values] at hValue
      rw [List.getElem?_map, hValue, Option.map_some] at hKey
      have hNot : ¬ (rows.length ≤ i ∧ i < tailItems) := by omega
      rw [getElem?_firstN _ hLt, List.getElem?_map, hValue]
      simp only [stream4FillSortTail, hSelected.count, hNot,
        if_false, Option.map_some, keyed]
      rw [Option.some.inj hKey]
    · rw [List.getElem?_eq_none (by simpa using hLt),
        List.getElem?_eq_none (by simpa using hLt)]
  · rw [List.map_replicate, ← firstN_const]
    apply firstN_congr
    intro i hLt
    have hPad :
        rows.length ≤ rows.length + i ∧
          rows.length + i < tailItems := by
      omega
    simp only [stream4FillSortTail, hSelected.count, hPad,
      and_self, if_true]
    rfl

theorem hashSort_pairs
    (cub : Stream4Cub)
    {items : Nat}
    {pairs : List (Hash128 × CandidateMeta)}
    (hPairs :
      firstN
          (fun i => (scratch.sortKey i, scratch.sortValue i))
          items = pairs) :
    firstN
        (fun i =>
          ((stream4HashSort cub items scratch).sortKey i,
            (stream4HashSort cub items scratch).sortValue i))
        items =
      cub.hashSortPairs.run pairs := by
  have hLength : (cub.hashSortPairs.run pairs).length = items := by
    rw [SortPairs.length_run, ← hPairs, length_firstN]
  have hRead :=
    firstN_writeFirst_pairs (cub.hashSortPairs.run pairs)
      scratch.sortKey scratch.sortValue
  rw [hLength] at hRead
  unfold stream4HashSort
  rw [hPairs]
  exact hRead

/-
  The survivors written by the second compaction are the valid
  outputs of the reduction, in order.
-/
theorem sortReduce_survivors
    (cub : Stream4Cub)
    {tailItems sortItems validItems : Nat}
    (output : Nat → CandidateMeta)
    (hSelected : Selected scratch rows)
    (hFits : rows.length ≤ sortItems)
    (hTail : sortItems ≤ tailItems)
    (hValid : sortItems ≤ validItems) :
    let reduced :=
      stream4SortReduce cub tailItems sortItems validItems scratch
    firstN
          (stream4CompactValidUnique validItems reduced output)
          reduced.scratchCount =
        validOutputs cub rows (sortItems - rows.length) ∧
      reduced.scratchCount ≤ sortItems := by
  intro reduced
  let padding := sortItems - rows.length
  let out := reducedPadded cub rows padding
  let sorted :=
    stream4HashSort cub sortItems
      (stream4FillSortTail tailItems scratch)
  let folded := stream4HashReduce cub sortItems sorted
  have hSorted :=
    hashSort_pairs cub
      (fillSortTail_pairs hSelected hFits hTail)
  have hCount : folded.scratchCount = out.length := by
    change (cub.hashReduceByKey.run _).length = _
    rw [hSorted]
    rfl
  have hValues :
      firstN folded.reduceValue out.length =
        out.map Prod.snd := by
    have hRead :=
      firstN_writeFirst (out.map Prod.snd) sorted.reduceValue
    rw [List.length_map] at hRead
    change
      firstN
          (writeFirst ((cub.hashReduceByKey.run _).map Prod.snd)
            _) _ = _
    rw [hSorted]
    exact hRead
  have hOutLength : out.length ≤ sortItems := by
    have hRuns :=
      (cub.hashReduceByKey.reduces
        (cub.hashSortPairs.run (padded rows padding))).length_le
    rw [SortPairs.length_run, padded, List.length_map,
      List.length_append, List.length_replicate] at hRuns
    exact hRuns.trans (by omega)
  have hMark :
      ∀ i, validMark folded.reduceValue folded.scratchCount i ≤
        1 := by
    intro i
    unfold validMark
    split_ifs <;> omega
  have hBeyond :
      ∀ i, validItems ≤ i →
        validMark folded.reduceValue folded.scratchCount i =
          0 := by
    intro i hGe
    rw [validMark, if_neg (by omega)]
  have hKept :
      kept (validMark folded.reduceValue folded.scratchCount)
          folded.reduceValue (256 * blocksFor validItems) =
        validOutputs cub rows padding := by
    have hCover := le_blocksFor validItems
    rw [validOutputs, ← hValues]
    apply kept_eq_filter (by omega)
    intro i _
    rw [hCount]
    unfold validMark isValid
    split_ifs with hLt hScore
    · simp [hLt, hScore]
    · simp [hLt, hScore]
    · simp [hLt]
  have hCompact :=
    compact_storeMarks (blocksFor validItems) folded
      folded.reduceValue output hMark hBeyond
  rw [hKept] at hCompact
  refine ⟨hCompact.2, ?_⟩
  have hTotal :
      reduced.scratchCount =
        (validOutputs cub rows padding).length :=
    hCompact.1
  rw [hTotal]
  have hFilter :
      (validOutputs cub rows padding).length ≤ out.length := by
    have hLe :=
      List.length_filter_le isValid (out.map Prod.snd)
    rw [List.length_map] at hLe
    exact hLe
  exact hFilter.trans hOutLength

----------------
-- The Published Histogram
----------------

/- A survivor's histogram pair; scores past the last bin count nothing. -/
def scorePair (c : CandidateMeta) : Nat × Nat :=
  if c.scoreKey.toNat < scoreBinCount then
    (c.scoreKey.toNat, 1)
  else
    (scoreBinCount, 0)

/- The pairs handed to the score sort. -/
def scorePairs
    (rows : List CandidateMeta)
    (padding : Nat) : List (Nat × Nat) :=
  rows.map scorePair ++
    List.replicate padding (scoreBinCount, 0)

/- Every row counts once at its score. -/
theorem fillScoreHistogramPairs_pairs
    (survivor : Nat → CandidateMeta)
    {cleanCount : Nat}
    (scratch : Stream4Scratch)
    (hFits : cleanCount ≤ capacity) :
    firstN
        (fun i =>
          ((stream4FillScoreHistogramPairs survivor cleanCount
              capacity scratch).scoreKeyA i,
            (stream4FillScoreHistogramPairs survivor cleanCount
              capacity scratch).scoreCountA i))
        capacity =
      scorePairs (firstN survivor cleanCount)
        (capacity - cleanCount) := by
  have hSplit : capacity = cleanCount + (capacity - cleanCount) := by
    omega
  unfold scorePairs
  rw [hSplit, firstN_add, Nat.add_sub_cancel_left, map_firstN,
    ← firstN_const]
  congr 1
  · apply firstN_congr
    intro i hLt
    have hCapacity :
        i < cleanCount + (capacity - cleanCount) := by
      omega
    simp only [stream4FillScoreHistogramPairs, hCapacity, hLt,
      if_true, true_and, scorePair]
    split_ifs <;> rfl
  · apply firstN_congr
    intro i hLt
    have hCapacity :
        cleanCount + i < cleanCount + (capacity - cleanCount) := by
      omega
    have hNot : ¬ cleanCount + i < cleanCount := by omega
    simp only [stream4FillScoreHistogramPairs, hCapacity, hNot,
      if_true, false_and, if_false]

theorem sum_valuesOf_map_scorePair
    (rows : List CandidateMeta)
    {score : Nat}
    (hScore : score < scoreBinCount) :
    (valuesOf (rows.map scorePair) score).sum =
      rows.countP fun c => c.scoreKey.toNat = score := by
  unfold valuesOf
  induction rows with
  | nil => rfl
  | cons c rows ih =>
      rw [List.map_cons, List.filter_cons, List.countP_cons, ← ih]
      unfold scorePair
      by_cases hBin : c.scoreKey.toNat < scoreBinCount
      · by_cases hEq : c.scoreKey.toNat = score
        · simp [hEq, hScore, Nat.add_comm]
        · simp [hBin, hEq]
      · have hNe : c.scoreKey.toNat ≠ score := by omega
        have hBins : scoreBinCount ≠ score := by omega
        simp [hBin, hNe, hBins]

theorem scoreHistogram_le_length
    (rows : List CandidateMeta)
    (score : Nat) :
    scoreHistogram rows score ≤ rows.length := by
  unfold scoreHistogram histogram
  split
  · exact List.countP_le_length
  · exact Nat.zero_le _

/- The counts of one bin add up to the rows with that score. -/
theorem sum_valuesOf_scorePairs
    (rows : List CandidateMeta)
    (padding : Nat)
    {score : Nat}
    (hScore : score < scoreBinCount) :
    (valuesOf (scorePairs rows padding) score).sum =
      scoreHistogram rows score := by
  have hPadding :
      valuesOf (List.replicate padding (scoreBinCount, 0))
          score = [] := by
    unfold valuesOf
    rw [List.filter_eq_nil_iff.mpr, List.map_nil]
    intro p hP hDec
    rw [List.eq_of_mem_replicate hP] at hDec
    have hEq : scoreBinCount = score := of_decide_eq_true hDec
    omega
  have hAppend :
      valuesOf (scorePairs rows padding) score =
        valuesOf (rows.map scorePair) score := by
    unfold scorePairs valuesOf at *
    rw [List.filter_append, List.map_append, hPadding,
      List.append_nil]
  rw [hAppend, scoreHistogram, if_pos hScore,
    sum_valuesOf_map_scorePair rows hScore, histogram]

theorem valuesOf_perm
    {κ ν : Type}
    [DecidableEq κ]
    {xs ys : List (κ × ν)}
    (hPerm : xs.Perm ys)
    (key : κ) :
    (valuesOf xs key).Perm (valuesOf ys key) :=
  (hPerm.filter _).map _

/-
  The reduction's output for the histogram: increasing keys,
  each with the rows of its score, and no row left out.
-/
theorem scoreReduce_spec
    (cub : Stream4Cub)
    (pairs : List (Nat × Nat)) :
    let out :=
      cub.scoreReduceByKey.run (cub.scoreSortPairs.run pairs)
    (out.Pairwise fun p q => p.1 < q.1) ∧
      (∀ p ∈ out, p.2 = (valuesOf pairs p.1).sum) ∧
      (∀ score, (∀ p ∈ out, p.1 ≠ score) →
        (valuesOf pairs score).sum = 0) ∧
      out.length ≤ pairs.length := by
  intro out
  have hPerm := cub.scoreSortPairs.perm pairs
  have hReduces :=
    cub.scoreReduceByKey.reduces (cub.scoreSortPairs.run pairs)
  rcases hReduces.of_sorted
      (cub.scoreSortPairs.sorted pairs) with
    ⟨hStrict, hFolds, hCovers⟩
  refine ⟨hStrict, ?_, ?_, ?_⟩
  · intro p hP
    rw [(hFolds p hP).sum_eq]
    exact (valuesOf_perm hPerm p.1).sum_eq
  · intro score hNone
    have hNil : valuesOf pairs score = [] := by
      rw [List.eq_nil_iff_forall_not_mem]
      intro a hA
      have hMem : (score, a) ∈ cub.scoreSortPairs.run pairs :=
        hPerm.mem_iff.mpr (mem_valuesOf_iff.mp hA)
      rcases hCovers _ hMem with ⟨value, hValue⟩
      exact hNone _ hValue rfl
    rw [hNil, List.sum_nil]
  · exact hReduces.length_le.trans
      (SortPairs.length_run _ _).le

/- Scattering increasing keys writes every reduced count to its bin. -/
theorem scatterScoreHistogram_apply
    {out : List (Nat × Nat)}
    (hist : BankHistogram)
    (hCount : scratch.scratchCount = out.length)
    (hPairs :
      firstN
          (fun i => (scratch.scoreKeyA i, scratch.scoreCountA i))
          out.length = out)
    (hStrict : out.Pairwise fun p q => p.1 < q.1)
    (hFits : out.length ≤ capacity)
    {score : Nat}
    (hScore : score < scoreBinCount) :
    let bins :=
      (stream4ScatterScoreHistogram capacity scratch hist).slot
        (!hist.activeIndex)
    (∀ p ∈ out, p.1 = score → bins score = p.2 % 2 ^ 32) ∧
      ((∀ p ∈ out, p.1 ≠ score) →
        bins score = hist.slot (!hist.activeIndex) score) := by
  intro bins
  have hCover := le_blocksFor capacity
  have hRead : ∀ i < out.length,
      out[i]? = some (scratch.scoreKeyA i,
        scratch.scoreCountA i) := by
    intro i hLt
    rw [← hPairs]
    exact getElem?_firstN _ (by simpa using hLt)
  have hBins : bins = scatter
      (fun i =>
        if i < capacity ∧ i < scratch.scratchCount ∧
            scratch.scoreKeyA i < scoreBinCount then
          1
        else
          0)
      scratch.scoreKeyA
      (fun i => scratch.scoreCountA i % 2 ^ 32)
      (hist.slot (!hist.activeIndex))
      (256 * blocksFor capacity) := by
    simp only [bins, stream4ScatterScoreHistogram,
      Function.update_self]
  have hMarked : ∀ i,
      (if i < capacity ∧ i < scratch.scratchCount ∧
          scratch.scoreKeyA i < scoreBinCount then
        1
      else
        0) ≠ 0 →
        i < out.length := by
    intro i hMark
    rw [hCount] at hMark
    by_contra hNot
    simp [hNot] at hMark
  constructor
  · intro p hP hEq
    rcases List.mem_iff_getElem?.mp hP with ⟨i, hGet⟩
    have hLt : i < out.length := by
      by_contra hNot
      rw [List.getElem?_eq_none (not_lt.mp hNot)] at hGet
      exact absurd hGet (by simp)
    have hHere := hRead i hLt
    rw [hGet] at hHere
    have hPair := Option.some.inj hHere
    have hKey : scratch.scoreKeyA i = score := by
      rw [← hEq, hPair]
    rw [hBins, ← hKey, hPair]
    apply scatter_at_dest
    · omega
    · rw [if_pos ⟨by omega, by omega, by omega⟩]
      exact Nat.one_ne_zero
    · intro j _ hMark hSame
      have hJ := hMarked j hMark
      have hReadJ := hRead j hJ
      rcases Nat.lt_trichotomy j i with hBefore | hHit | hAfter
      · have hLess :=
          List.pairwise_iff_getElem.mp hStrict j i hJ hLt hBefore
        rw [List.getElem?_eq_getElem hJ] at hReadJ
        rw [List.getElem?_eq_getElem hLt] at hGet
        rw [Option.some.inj hReadJ, Option.some.inj hGet,
          hPair] at hLess
        omega
      · exact hHit
      · have hLess :=
          List.pairwise_iff_getElem.mp hStrict i j hLt hJ hAfter
        rw [List.getElem?_eq_getElem hJ] at hReadJ
        rw [List.getElem?_eq_getElem hLt] at hGet
        rw [Option.some.inj hReadJ, Option.some.inj hGet,
          hPair] at hLess
        omega
  · intro hNone
    rw [hBins]
    apply scatter_of_not_dest
    intro i _ hMark hSame
    have hI := hMarked i hMark
    have hMem : (scratch.scoreKeyA i, scratch.scoreCountA i) ∈
        out :=
      List.mem_iff_getElem?.mpr ⟨i, hRead i hI⟩
    exact hNone _ hMem hSame

/- The published slot counts the survivors by score. -/
theorem stream4WriteShardHistogram_committed
    (cub : Stream4Cub)
    (survivor : Nat → CandidateMeta)
    {cleanCount : Nat}
    (scratch : Stream4Scratch)
    (hist : BankHistogram)
    (hFits : cleanCount ≤ capacity)
    (hCapacity : capacity < 2 ^ 32) :
    let published :=
      (stream4WriteShardHistogram cub survivor cleanCount
        capacity scratch hist).2
    published.activeIndex = (!hist.activeIndex) ∧
      ∀ score < scoreBinCount,
        published.committed score =
          scoreHistogram (firstN survivor cleanCount) score := by
  intro published
  refine ⟨rfl, ?_⟩
  intro score hScore
  let rows := firstN survivor cleanCount
  let pairs := scorePairs rows (capacity - cleanCount)
  let filled :=
    stream4FillScoreHistogramPairs survivor cleanCount capacity
      scratch
  let sorted := stream4ScoreSort cub capacity filled
  let folded := stream4ScoreReduce cub capacity sorted
  let out :=
    cub.scoreReduceByKey.run (cub.scoreSortPairs.run pairs)
  have hFilled :=
    fillScoreHistogramPairs_pairs survivor scratch hFits
  have hPairsLength : pairs.length = capacity := by
    have hLength := congrArg List.length hFilled
    rw [length_firstN] at hLength
    exact hLength.symm
  have hSortedLength :
      (cub.scoreSortPairs.run pairs).length = capacity := by
    rw [SortPairs.length_run, hPairsLength]
  have hSorted :
      firstN
          (fun i => (sorted.scoreKeyB i, sorted.scoreCountB i))
          capacity =
        cub.scoreSortPairs.run pairs := by
    have hRead :=
      firstN_writeFirst_pairs (cub.scoreSortPairs.run pairs)
        filled.scoreKeyB filled.scoreCountB
    rw [hSortedLength] at hRead
    simp only [sorted, stream4ScoreSort]
    rw [hFilled]
    exact hRead
  have hCount : folded.scratchCount = out.length := by
    simp only [folded, stream4ScoreReduce]
    rw [hSorted]
  have hFolded :
      firstN
          (fun i => (folded.scoreKeyA i, folded.scoreCountA i))
          out.length = out := by
    simp only [folded, stream4ScoreReduce]
    rw [hSorted]
    exact firstN_writeFirst_pairs out _ _
  rcases scoreReduce_spec cub pairs with
    ⟨hStrict, hSums, hMissing, hLength⟩
  have hOut : out.length ≤ capacity :=
    hLength.trans hPairsLength.le
  have hCleared :
      (stream4ClearInactiveHistogram hist).slot
          (!(stream4ClearInactiveHistogram hist).activeIndex)
          score = 0 := by
    simp [stream4ClearInactiveHistogram, hScore]
  have hScatter :=
    scatterScoreHistogram_apply
      (stream4ClearInactiveHistogram hist) hCount hFolded hStrict
      hOut hScore
  rcases hScatter with ⟨hPresent, hAbsent⟩
  have hSum :=
    sum_valuesOf_scorePairs rows (capacity - cleanCount) hScore
  have hBound : scoreHistogram rows score < 2 ^ 32 := by
    have hRows : rows.length = cleanCount := length_firstN _ _
    have hLe := scoreHistogram_le_length rows score
    omega
  have hSlot :
      published.committed score =
        (stream4ScatterScoreHistogram capacity folded
          (stream4ClearInactiveHistogram hist)).slot
            (!(stream4ClearInactiveHistogram hist).activeIndex)
            score :=
    rfl
  rw [hSlot]
  by_cases hHit : ∃ p ∈ out, p.1 = score
  · rcases hHit with ⟨p, hP, hEq⟩
    have hValue := hSums p hP
    rw [hEq, hSum] at hValue
    rw [hPresent p hP hEq, hValue, Nat.mod_eq_of_lt hBound]
  · have hNone : ∀ p ∈ out, p.1 ≠ score :=
      fun p hP hEq => hHit ⟨p, hP, hEq⟩
    have hZero := hMissing score hNone
    rw [hSum] at hZero
    rw [hAbsent hNone, hCleared, hZero]

----------------
-- The Whole Pass
----------------

/- What a pass owes the oracle. -/
structure PassResult
    (bank out : ShardBank)
    (threshold : UInt32) : Prop where
  survivors :
    firstN out.survivorShard out.cleanCount =
      stream4ThresholdSortDedup bank.rows threshold
  dirty : out.dirtyCount = 0
  released : out.processingFlag = false
  published :
    out.scoreHist.activeIndex = !bank.scoreHist.activeIndex
  histogram :
    ∀ score < scoreBinCount,
      out.scoreHist.committed score =
        scoreHistogram
          (stream4ThresholdSortDedup bank.rows threshold) score

/- The last kernels write the rows and their histogram. -/
theorem stream4Finish_result
    (cub : Stream4Cub)
    (threshold : UInt32)
    {sortItems : Nat}
    (scratch : Stream4Scratch)
    (bank : ShardBank)
    (hFits : bank.cleanCount + bank.dirtyCount ≤ capacity)
    (hScores : ∀ c ∈ bank.rows, c.scoreKey < uint32Max)
    (hSort :
      (stream4Select threshold capacity scratch
        bank).scratchCount ≤ sortItems)
    (hWord : sortItems < 2 ^ 32) :
    PassResult bank
      (stream4Finish cub sortItems
        (stream4Select threshold capacity scratch bank) bank).2
      threshold := by
  have hSelected :=
    stream4Select_selected threshold capacity scratch bank hFits
  rw [hSelected.count] at hSort
  rcases sortReduce_survivors cub bank.survivorShard hSelected
      hSort le_rfl le_rfl with
    ⟨hSurvivors, hCount⟩
  rw [validOutputs_eq_oracle cub bank.rows threshold _
    hScores] at hSurvivors
  rcases stream4WriteShardHistogram_committed cub
      (stream4CompactValidUnique sortItems
        (stream4SortReduce cub sortItems sortItems sortItems
          (stream4Select threshold capacity scratch bank))
        bank.survivorShard)
      (stream4SortReduce cub sortItems sortItems sortItems
        (stream4Select threshold capacity scratch bank))
      bank.scoreHist hCount hWord with
    ⟨hActive, hHistogram⟩
  rw [hSurvivors] at hHistogram
  exact
    { survivors := hSurvivors
      dirty := rfl
      released := rfl
      published := hActive
      histogram := hHistogram }

/- The chosen body covers the compacted rows and stays inside the arena. -/
theorem stream4ChooseSortBody_covers
    {count : Nat}
    (hFits : count ≤ capacity) :
    ∃ sortItems,
      stream4ChooseSortBody count capacity = .ok sortItems ∧
        count ≤ sortItems ∧ sortItems ≤ capacity := by
  unfold stream4ChooseSortBody
  have hNot : ¬ count > capacity := by omega
  simp only [hNot, if_false]
  split_ifs <;>
    exact ⟨_, rfl, by omega, by omega⟩

/-
  The pass computes the host oracle: with a host threshold, with
  the device's active threshold, and with the bounded sort.
-/
theorem stream4Pass_eq_oracle
    (cub : Stream4Cub)
    (capacity : Nat)
    (scratch : Stream4Scratch)
    (bank : ShardBank)
    (hPositive : 0 < capacity)
    (hWord : capacity < 2 ^ 32)
    (hFits : bank.cleanCount + bank.dirtyCount ≤ capacity)
    (hScores : ∀ c ∈ bank.rows, c.scoreKey < uint32Max) :
    (∀ threshold, ∃ scratch' out,
      stream4ShardJob cub threshold capacity scratch bank =
          .ok (scratch', out) ∧
        PassResult bank out threshold) ∧
    ∀ boundedSort slots, ∃ scratch' out,
      stream4ShardJobDeviceThreshold cub boundedSort slots
          capacity scratch bank = .ok (scratch', out) ∧
        PassResult bank out slots.active := by
  have hNonzero : capacity ≠ 0 := by omega
  have hCount : ∀ threshold,
      (stream4Select threshold capacity scratch
        bank).scratchCount ≤ capacity := by
    intro threshold
    rw [(stream4Select_selected threshold capacity scratch bank
      hFits).count]
    have hFilter :=
      List.length_filter_le
        (fun c : CandidateMeta =>
          decide (c.scoreKey ≤ threshold)) bank.rows
    have hRows :
        bank.rows.length = bank.cleanCount + bank.dirtyCount :=
      length_firstN _ _
    omega
  constructor
  · intro threshold
    refine ⟨_, _, if_neg hNonzero, ?_⟩
    exact stream4Finish_result cub threshold scratch bank hFits
      hScores (hCount threshold) hWord
  · intro boundedSort slots
    unfold stream4ShardJobDeviceThreshold
    rw [if_neg hNonzero]
    cases boundedSort with
    | false =>
        refine ⟨_, _, rfl, ?_⟩
        exact stream4Finish_result cub slots.active scratch bank
          hFits hScores (hCount slots.active) hWord
    | true =>
        rcases stream4ChooseSortBody_covers
            (hCount slots.active) with
          ⟨sortItems, hChosen, hCovers, hInside⟩
        simp only [if_true, hChosen]
        refine ⟨_, _, rfl, ?_⟩
        exact stream4Finish_result cub slots.active scratch bank
          hFits hScores hCovers (by omega)

/-
  A bank holding a duplicate pair and a valid row whose hash is
  the sentinel: the padding does not swallow it.
-/
theorem stream4Pass_eq_oracle_sentinel :
    let worse : CandidateMeta := ⟨⟨1, 2⟩, 9, 10, 3⟩
    let better : CandidateMeta := ⟨⟨1, 2⟩, 8, 10, 4⟩
    let extreme : CandidateMeta := ⟨sentinelHash, 7, 12, 5⟩
    let rows := [worse, extreme, better]
    let bank : ShardBank :=
      { survivorShard := fun i =>
          (rows[i]?).getD stream4InvalidCandidate
        cleanCount := 1
        dirtyCount := 2
        processingFlag := true
        scoreHist :=
          { slot := fun _ _ => 0, activeIndex := false } }
    ∃ scratch' out,
      stream4ShardJob hostCub 20 4 zeroScratch bank =
          .ok (scratch', out) ∧
        firstN out.survivorShard out.cleanCount =
          [better, extreme] := by
  intro worse better extreme rows bank
  have hPass :=
    stream4Pass_eq_oracle hostCub 4 zeroScratch bank
      (by decide) (by decide) (by decide) (by decide)
  rcases hPass.1 20 with ⟨scratch', out, hRun, hResult⟩
  refine ⟨scratch', out, hRun, ?_⟩
  exact hResult.survivors.trans (by decide)

end Stream4

end BeamSearch
