import BeamSearch.Lib.PartitionPoint
import BeamSearch.Stream4.Union

/-
  The histogram of the union of two banks, without the union.

  Every row of the first bank looks for its hash in the second
  and counts the better score; every row of the second bank
  counts only if the first has no row of its hash. Lanes of a
  warp that add to one bin leave the sum to one of them.

  Main declarations:
    * `find`, `addsOf`, `warpAdd`
    * `thresholdBuildExactBankUnionHistogram`
    * `unionRows`
    * `thresholdBuildExactBankUnionHistogram_spec`
-/

namespace BeamSearch

open Compaction PartitionPoint Stream4

namespace ExactBankHistogram

----------------
-- The Kernel
----------------

/- The order of the device: the upper words first. -/
def less (a b : Hash128) : Bool :=
  decide (a.hi < b.hi) || (decide (a.hi = b.hi) && decide (a.lo < b.lo))

/-
  The position of a hash in a bank, the count of its rows where
  it is missing, and `none` for a read outside the bank.
-/
def find
    (rows : List CandidateMeta)
    (key : Hash128) : Option Nat := do
  let first ← partitionPoint (fun row => less row.hash key) rows
  if first < rows.length then do
    let row ← rows[first]?
    some
      (if row.hash.lo = key.lo ∧ row.hash.hi = key.hi then first
      else rows.length)
  else
    some rows.length

/- The score of a row, or the better one where its hash is found. -/
def foundKey
    (b : List CandidateMeta)
    (row : CandidateMeta)
    (found : Nat) : Option UInt32 :=
  if found < b.length then
    (b[found]?).map fun other => min row.scoreKey other.scoreKey
  else
    some row.scoreKey

/- What a row of the first bank adds. -/
def ownAdds
    (b : List CandidateMeta)
    (row : CandidateMeta) : Option (List Nat) := do
  let found ← find b row.hash
  let key ← foundKey b row found
  some (if key.toNat < scoreBinCount then [key.toNat] else [])

/- What a row of the second bank adds. -/
def otherAdds
    (a : List CandidateMeta)
    (row : CandidateMeta) : Option (List Nat) := do
  let found ← find a row.hash
  some
    (if found = a.length ∧ row.scoreKey.toNat < scoreBinCount then
      [row.scoreKey.toNat]
    else
      [])

/- A thread reads the row of its index where the bank has one. -/
def rowAdds
    (adds : CandidateMeta → Option (List Nat))
    (rows : List CandidateMeta)
    (i : Nat) : Option (List Nat) :=
  if i < rows.length then do
    let row ← rows[i]?
    adds row
  else
    some []

/- The bins one thread of a shard adds to. -/
def addsOf
    (a b : List CandidateMeta)
    (i : Nat) : Option (List Nat) := do
  let own ← rowAdds (ownAdds b) a i
  let other ← rowAdds (otherAdds a) b i
  some (own ++ other)

/- The clean rows of one bank. -/
def bankRows
    (rows : Nat → CandidateMeta)
    (counts : Nat → Nat)
    (capacity physical : Nat) : List CandidateMeta :=
  firstN (fun i => rows (physical * capacity + i))
    (counts physical)

/- The adds of one row of blocks. -/
def shardAdds
    (rows : Nat → CandidateMeta)
    (counts : Nat → Nat)
    (capacity logical : Nat) : Option (List Nat) := do
  let adds ←
    (List.range (256 * ((capacity + 255) / 256))).mapM
      (addsOf (bankRows rows counts capacity (logical * 2))
        (bankRows rows counts capacity (logical * 2 + 1)))
  some adds.flatten

/- One add of the active lanes: the first of equals adds for all. -/
def warpAdd
    (hist : Nat → Nat)
    (keys : List Nat) : Nat → Nat :=
  (List.range keys.length).foldl
    (fun hist lane =>
      match keys[lane]? with
      | none => hist
      | some key =>
          if keys.idxOf key = lane then
            Function.update hist key (hist key + keys.count key)
          else
            hist)
    hist

/- How the adds of a launch meet in warps. -/
structure WarpGrouping where
  run : List Nat → List (List Nat)
  perm : ∀ keys, (run keys).flatten.Perm keys

end ExactBankHistogram

open ExactBankHistogram

/- `none` is a read outside a bank. -/
def thresholdBuildExactBankUnionHistogram
    (grouping : WarpGrouping)
    (rows : Nat → CandidateMeta)
    (counts : Nat → Nat)
    (shards capacity : Nat) : Option (Nat → Nat) := do
  let adds ← (List.range shards).mapM (shardAdds rows counts capacity)
  some ((grouping.run adds.flatten).foldl warpAdd fun _ => 0)

namespace ExactBankHistogram

variable {rows b a : List CandidateMeta}

----------------
-- The Adds Of A Warp
----------------

/- The lanes before `n` have added what their leaders add. -/
theorem foldl_lanes
    (hist : Nat → Nat)
    (keys : List Nat)
    (key n : Nat)
    (hInside : n ≤ keys.length) :
    (List.range n).foldl
        (fun hist lane =>
          match keys[lane]? with
          | none => hist
          | some key =>
              if keys.idxOf key = lane then
                Function.update hist key
                  (hist key + keys.count key)
              else
                hist)
        hist key =
      hist key +
        if keys.idxOf key < n then keys.count key else 0 := by
  induction n with
  | zero => simp
  | succ n ih =>
      have hBefore := ih (by omega)
      have hLane : n < keys.length := hInside
      rw [List.range_succ, List.foldl_append, List.foldl_cons,
        List.foldl_nil, List.getElem?_eq_getElem hLane]
      dsimp only
      by_cases hLeader : keys.idxOf keys[n] = n
      · rw [if_pos hLeader]
        by_cases hKey : key = keys[n]
        · subst hKey
          rw [Function.update_self, hBefore, hLeader,
            if_neg (lt_irrefl n), if_pos (Nat.lt_succ_self n),
            Nat.add_zero]
        · have hOther : keys.idxOf key ≠ n := by
            intro hSame
            have hFound : keys.idxOf key < keys.length := by omega
            have hRead := List.getElem_idxOf hFound
            refine hKey ?_
            rw [← hRead]
            congr 1
          rw [Function.update_of_ne hKey, hBefore]
          congr 1
          exact if_congr (by omega) rfl rfl
      · rw [if_neg hLeader, hBefore]
        have hOther : keys.idxOf key ≠ n := by
          intro hSame
          have hFound : keys.idxOf key < keys.length := by omega
          have hRead := List.getElem_idxOf hFound
          refine hLeader ?_
          have hEq : keys[n] = key := by
            rw [← hRead]
            congr 1
            exact hSame.symm
          rw [hEq, hSame]
        congr 1
        exact if_congr (by omega) rfl rfl

/- Every lane is counted once. -/
theorem warpAdd_apply
    (hist : Nat → Nat)
    (keys : List Nat)
    (key : Nat) :
    warpAdd hist keys key = hist key + keys.count key := by
  rw [warpAdd, foldl_lanes hist keys key _ (Nat.le_refl _)]
  split_ifs with hFound
  · rfl
  · have hAbsent : key ∉ keys := fun hMem =>
      hFound (List.idxOf_lt_length_iff.mpr hMem)
    rw [List.count_eq_zero_of_not_mem hAbsent]

theorem foldl_warpAdd
    (warps : List (List Nat))
    (hist : Nat → Nat)
    (key : Nat) :
    warps.foldl warpAdd hist key =
      hist key + warps.flatten.count key := by
  induction warps generalizing hist with
  | nil => rfl
  | cons keys warps ih =>
      rw [List.foldl_cons, ih, warpAdd_apply, List.flatten_cons,
        List.count_append, Nat.add_assoc]

----------------
-- Looking A Hash Up
----------------

theorem less_eq (a b : Hash128) : less a b = hashLess a b := by
  unfold less hashLess
  by_cases hHi : a.hi = b.hi
  · have hNot : ¬ a.hi < b.hi := by
      rw [hHi]
      exact UInt64.lt_irrefl _
    simp [hHi]
  · simp [hHi]

/- The row of a hash. -/
def lookup
    (rows : List CandidateMeta)
    (key : Hash128) : Option CandidateMeta :=
  rows.find? fun row => row.hash = key

theorem lookup_eq_none_iff
    {key : Hash128} :
    lookup rows key = none ↔ ∀ row ∈ rows, row.hash ≠ key := by
  rw [lookup, List.find?_eq_none]
  simp

/- The lookup in sorted rows finds the row of the hash. -/
theorem lookup_eq_some_iff
    {key : Hash128}
    {row : CandidateMeta}
    (hSorted : rows.Pairwise fun a b => a.hash < b.hash) :
    lookup rows key = some row ↔ row ∈ rows ∧ row.hash = key := by
  have hKeys : (rows.map CandidateMeta.hash).Nodup :=
    List.pairwise_map.mpr (hSorted.imp fun hLt => ne_of_lt hLt)
  constructor
  · intro hFound
    unfold lookup at hFound
    have hHash := List.find?_some hFound
    exact
      ⟨List.mem_of_find?_eq_some hFound,
        of_decide_eq_true hHash⟩
  · intro hRow
    cases hFound : lookup rows key with
    | none =>
        exact
          absurd hRow.2 (lookup_eq_none_iff.mp hFound row hRow.1)
    | some other =>
        unfold lookup at hFound
        have hTrue := List.find?_some hFound
        have hHash : other.hash = key := of_decide_eq_true hTrue
        have hSame :=
          List.inj_on_of_nodup_map hKeys
            (List.mem_of_find?_eq_some hFound) hRow.1
            (hHash.trans hRow.2.symm)
        rw [hSame]

theorem find_of_point
    {key : Hash128}
    {first : Nat}
    (hRun :
      partitionPoint (fun row => less row.hash key) rows =
        some first) :
    find rows key =
      if first < rows.length then
        rows[first]?.bind fun row =>
          some
            (if row.hash.lo = key.lo ∧ row.hash.hi = key.hi then
              first
            else
              rows.length)
      else
        some rows.length := by
  rw [find, hRun]
  rfl

/- The search finds the row of the hash, or the count. -/
theorem find_spec
    (key : Hash128)
    (hSorted : rows.Pairwise fun a b => a.hash < b.hash) :
    ∃ found,
      find rows key = some found ∧
        ((lookup rows key = none ∧ found = rows.length) ∨
          ∃ row,
            lookup rows key = some row ∧
              rows[found]? = some row) := by
  have hLow :
      rows.Pairwise fun a b =>
        less b.hash key = true → less a.hash key = true := by
    refine hSorted.imp fun hLt hLess => ?_
    rw [less_eq, hashLess_iff] at hLess ⊢
    exact hLt.trans hLess
  rcases partitionPoint_spec hLow with ⟨first, hRun, hPoint⟩
  have hAbove :
      ∀ (i : Nat) (hLt : i < rows.length), first ≤ i →
        key ≤ rows[i].hash := by
    intro i hLt hLe
    have hHigh := hPoint.behind i hLt hLe
    rw [less_eq, Bool.eq_false_iff, ne_eq, hashLess_iff,
      not_lt] at hHigh
    exact hHigh
  have hBelow :
      ∀ (i : Nat) (hLt : i < rows.length), i < first →
        rows[i].hash < key := by
    intro i hLt hI
    have hBefore := hPoint.before i hLt hI
    rw [less_eq, hashLess_iff] at hBefore
    exact hBefore
  have hRows := List.pairwise_iff_getElem.mp hSorted
  rw [find_of_point hRun]
  by_cases hInside : first < rows.length
  · have hRead := List.getElem?_eq_getElem hInside
    rw [if_pos hInside, hRead]
    by_cases hHash : rows[first].hash = key
    · refine ⟨first, ?_, Or.inr ⟨rows[first], ?_, hRead⟩⟩
      · rw [Option.bind_some, hHash, if_pos ⟨rfl, rfl⟩]
      · exact
          (lookup_eq_some_iff hSorted).mpr
            ⟨List.getElem_mem hInside, hHash⟩
    · refine ⟨rows.length, ?_, Or.inl ⟨?_, rfl⟩⟩
      · have hWords :
            ¬ (rows[first].hash.lo = key.lo ∧
                rows[first].hash.hi = key.hi) := by
          intro hBoth
          refine hHash ?_
          cases hOwn : rows[first].hash
          cases key
          rw [hOwn] at hBoth
          simpa using hBoth
        rw [Option.bind_some, if_neg hWords]
      · refine lookup_eq_none_iff.mpr fun row hMem hSame => ?_
        rcases List.getElem_of_mem hMem with ⟨i, hLt, hRow⟩
        have hKey : rows[i].hash = key := by
          rw [hRow]
          exact hSame
        rcases Nat.lt_trichotomy i first with hI | hI | hI
        · exact (hBelow i hLt hI).ne hKey
        · subst hI
          exact hHash hKey
        · have hLess := hRows first i hInside hLt hI
          rw [hKey] at hLess
          exact
            absurd hLess
              (hAbove first hInside (Nat.le_refl _)).not_gt
  · rw [if_neg hInside]
    refine ⟨rows.length, rfl, Or.inl ⟨?_, rfl⟩⟩
    refine lookup_eq_none_iff.mpr fun row hMem hSame => ?_
    rcases List.getElem_of_mem hMem with ⟨i, hLt, hRow⟩
    have hLess := hBelow i hLt (by omega)
    rw [hRow, hSame] at hLess
    exact absurd hLess (lt_irrefl _)

----------------
-- The Rows Of The Union
----------------

/- A row of the first bank, or the better one of its hash. -/
def mergeRow
    (b : List CandidateMeta)
    (row : CandidateMeta) : CandidateMeta :=
  match lookup b row.hash with
  | none => row
  | some other => if candidateBetter other row then other else row

/- The rows of both banks, a common hash once. -/
def unionRows (a b : List CandidateMeta) : List CandidateMeta :=
  a.map (mergeRow b) ++
    b.filter fun row => (lookup a row.hash).isNone

theorem hash_mergeRow
    (row : CandidateMeta)
    (hSorted : b.Pairwise fun x y => x.hash < y.hash) :
    (mergeRow b row).hash = row.hash := by
  rw [mergeRow]
  cases hFound : lookup b row.hash with
  | none => rfl
  | some other =>
      have hHash := ((lookup_eq_some_iff hSorted).mp hFound).2
      dsimp only
      split
      · exact hHash
      · rfl

/- Two banks, each strictly increasing in the hash. -/
structure SortedBanks (a b : List CandidateMeta) : Prop where
  first : a.Pairwise fun x y => x.hash < y.hash
  second : b.Pairwise fun x y => x.hash < y.hash

theorem nodup_of_sorted
    (hSorted : rows.Pairwise fun x y => x.hash < y.hash) :
    (rows.map CandidateMeta.hash).Nodup :=
  List.pairwise_map.mpr (hSorted.imp fun hLt => ne_of_lt hLt)

/- No hash stands twice in the union. -/
theorem SortedBanks.nodup
    (hBanks : SortedBanks a b) :
    (unionRows a b).Nodup := by
  have hOwn :
      (a.map (mergeRow b)).map CandidateMeta.hash =
        a.map CandidateMeta.hash := by
    rw [List.map_map]
    exact
      List.map_congr_left fun row _ =>
        hash_mergeRow row hBanks.second
  refine List.Nodup.of_map CandidateMeta.hash ?_
  rw [unionRows, List.map_append, hOwn]
  refine
    List.nodup_append.mpr
      ⟨nodup_of_sorted hBanks.first,
        nodup_of_sorted (hBanks.second.filter _), ?_⟩
  intro x hX y hY hSame
  rcases List.mem_map.mp hX with ⟨own, hOwnMem, hOwnHash⟩
  rcases List.mem_map.mp hY with ⟨other, hOtherMem, hOtherHash⟩
  have hAbsent :=
    lookup_eq_none_iff.mp
      (Option.isNone_iff_eq_none.mp (List.mem_filter.mp hOtherMem).2)
  refine hAbsent own hOwnMem ?_
  rw [hOwnHash, hSame, hOtherHash]

theorem eq_of_hash_of_mem
    {x y : CandidateMeta}
    (hSorted : rows.Pairwise fun x y => x.hash < y.hash)
    (hX : x ∈ rows)
    (hY : y ∈ rows)
    (hSame : x.hash = y.hash) :
    x = y :=
  List.inj_on_of_nodup_map (nodup_of_sorted hSorted) hX hY hSame

/- A merged row is the best of its hash. -/
theorem SortedBanks.isBest_mergeRow
    {row : CandidateMeta}
    (hBanks : SortedBanks a b)
    (hMem : row ∈ a) :
    IsBest uint32Max (a ++ b) (mergeRow b row) := by
  have hHash := hash_mergeRow row hBanks.second
  unfold IsBest KeyedMin.IsWinner
  rw [hHash]
  rw [mergeRow]
  cases hFound : lookup b row.hash with
  | none =>
      refine
        ⟨List.mem_append_left _ hMem, within_uint32Max _, ?_⟩
      intro other hOther hSame
      rcases List.mem_append.mp hOther with hOwn | hSecond
      · rw [eq_of_hash_of_mem hBanks.first hOwn hMem hSame]
      · exact
          absurd hSame (lookup_eq_none_iff.mp hFound other hSecond)
  | some best =>
      rcases (lookup_eq_some_iff hBanks.second).mp hFound with
        ⟨hBest, hBestHash⟩
      dsimp only
      have hOnly :
          ∀ other ∈ a ++ b, other.hash = row.hash →
            other = row ∨ other = best := by
        intro other hOther hSame
        rcases List.mem_append.mp hOther with hOwn | hSecond
        · exact
            Or.inl
              (eq_of_hash_of_mem hBanks.first hOwn hMem hSame)
        · exact
            Or.inr
              (eq_of_hash_of_mem hBanks.second hSecond hBest
                (hSame.trans hBestHash.symm))
      split
      case isTrue hBetter =>
        rw [candidateBetter_iff] at hBetter
        refine
          ⟨List.mem_append_right _ hBest, within_uint32Max _, ?_⟩
        intro other hOther hSame
        rcases hOnly other hOther hSame with hRow | hOwn
        · rw [hRow]
          exact Nat.le_of_lt hBetter
        · rw [hOwn]
      case isFalse hWorse =>
        rw [candidateBetter_iff, Nat.not_lt] at hWorse
        refine
          ⟨List.mem_append_left _ hMem, within_uint32Max _, ?_⟩
        intro other hOther hSame
        rcases hOnly other hOther hSame with hRow | hOwn
        · rw [hRow]
        · rw [hOwn]
          exact hWorse

/- The union holds the best row of each hash. -/
theorem SortedBanks.mem_unionRows_iff
    (hBanks : SortedBanks a b)
    (row : CandidateMeta) :
    row ∈ unionRows a b ↔ IsBest uint32Max (a ++ b) row := by
  rw [unionRows, List.mem_append, List.mem_map, List.mem_filter]
  constructor
  · intro hMem
    rcases hMem with ⟨own, hOwn, hMerged⟩ | ⟨hSecond, hAlone⟩
    · rw [← hMerged]
      exact hBanks.isBest_mergeRow hOwn
    · have hAbsent :=
        lookup_eq_none_iff.mp
          (Option.isNone_iff_eq_none.mp hAlone)
      refine
        ⟨List.mem_append_right _ hSecond, within_uint32Max _, ?_⟩
      intro other hOther hSame
      rcases List.mem_append.mp hOther with hOwn | hRow
      · exact absurd hSame (hAbsent other hOwn)
      · rw [eq_of_hash_of_mem hBanks.second hRow hSecond hSame]
  · intro hBest
    rcases hBest with ⟨hMem, -, hLeast⟩
    -- Two rows of one hash that are both best are one row.
    have hMerge :
        ∀ own ∈ a, own.hash = row.hash → mergeRow b own = row := by
      intro own hOwn hSame
      have hWinner := hBanks.isBest_mergeRow hOwn
      have hHash := hash_mergeRow own hBanks.second
      refine CandidateMeta.eq_of_hash_of_rank
        (hHash.trans hSame) ?_
      exact
        Nat.le_antisymm
          (hWinner.2.2 row hMem
            (hSame.symm.trans hHash.symm))
          (hLeast _ hWinner.1 (hHash.trans hSame))
    rcases List.mem_append.mp hMem with hOwn | hSecond
    · exact Or.inl ⟨row, hOwn, hMerge row hOwn rfl⟩
    · cases hFound : lookup a row.hash with
      | none => exact Or.inr ⟨hSecond, rfl⟩
      | some own =>
          rcases (lookup_eq_some_iff hBanks.first).mp hFound with
            ⟨hOwn, hSame⟩
          exact Or.inl ⟨own, hOwn, hMerge own hOwn hSame⟩

/- The counted rows are the rows of the reference. -/
theorem SortedBanks.unionRows_perm
    (hBanks : SortedBanks a b) :
    (unionRows a b).Perm (uniqueUnionReference a b) := by
  have hReference : (uniqueUnionReference a b).Nodup :=
    (stream4ThresholdSortDedup_pairwise _ _).imp fun hLt hSame =>
      absurd (congrArg CandidateMeta.hash hSame) (ne_of_lt hLt)
  refine
    (List.perm_ext_iff_of_nodup hBanks.nodup hReference).mpr ?_
  intro row
  rw [hBanks.mem_unionRows_iff, uniqueUnionReference,
    mem_stream4ThresholdSortDedup_iff]

----------------
-- The Adds Of A Shard
----------------

/- The bin of a row, where it has one. -/
def binned (row : CandidateMeta) : List Nat :=
  if row.scoreKey.toNat < scoreBinCount then
    [row.scoreKey.toNat]
  else
    []

theorem min_of_le
    {x y : UInt32}
    (hLe : x ≤ y) :
    min x y = x :=
  if_pos hLe

theorem min_of_ge
    {x y : UInt32}
    (hGe : y ≤ x) :
    min x y = y := by
  change (if x ≤ y then x else y) = y
  split
  case isTrue hLe => exact UInt32.le_antisymm hLe hGe
  case isFalse hNot => rfl

theorem scoreKey_mergeRow
    {row other : CandidateMeta}
    (hFound : lookup b row.hash = some other) :
    (mergeRow b row).scoreKey = min row.scoreKey other.scoreKey := by
  rw [mergeRow, hFound]
  dsimp only
  split
  case isTrue hBetter =>
    rw [candidateBetter_iff] at hBetter
    exact
      (min_of_ge
        (CandidateMeta.scoreKey_le_of_rank_le
          (Nat.le_of_lt hBetter))).symm
  case isFalse hWorse =>
    rw [candidateBetter_iff, Nat.not_lt] at hWorse
    exact
      (min_of_le
        (CandidateMeta.scoreKey_le_of_rank_le hWorse)).symm

/- A row of the first bank adds its merged row. -/
theorem SortedBanks.ownAdds_eq
    (hBanks : SortedBanks a b)
    (row : CandidateMeta) :
    ownAdds b row = some (binned (mergeRow b row)) := by
  rcases find_spec row.hash hBanks.second with
    ⟨found, hFind, ⟨hNone, hCount⟩ | ⟨other, hFound, hRead⟩⟩
  · have hKey : foundKey b row found = some row.scoreKey :=
      if_neg (by omega)
    rw [ownAdds, hFind, mergeRow, hNone]
    change (foundKey b row found).bind _ = _
    rw [hKey]
    rfl
  · have hInside : found < b.length :=
      (List.getElem?_eq_some_iff.mp hRead).1
    have hKey :
        foundKey b row found = some (mergeRow b row).scoreKey := by
      rw [foundKey, if_pos hInside, hRead,
        scoreKey_mergeRow hFound]
      rfl
    rw [ownAdds, hFind]
    change (foundKey b row found).bind _ = _
    rw [hKey]
    rfl

/-
  A row of the second bank adds itself unless the first has
  it.
-/
theorem SortedBanks.otherAdds_eq
    (hBanks : SortedBanks a b)
    (row : CandidateMeta) :
    otherAdds a row =
      some
        (if (lookup a row.hash).isNone = true then binned row
        else []) := by
  rcases find_spec row.hash hBanks.first with
    ⟨found, hFind, ⟨hNone, hCount⟩ | ⟨other, hFound, hRead⟩⟩
  · rw [otherAdds, hFind, hNone]
    change some _ = some _
    congr 1
    rw [if_pos Option.isNone_none, binned]
    exact if_congr (and_iff_right hCount) rfl rfl
  · have hInside : found < a.length :=
      (List.getElem?_eq_some_iff.mp hRead).1
    rw [otherAdds, hFind, hFound]
    change some _ = some _
    congr 1
    rw [if_neg (by omega)]
    rfl

theorem option_mapM_eq_some
    {α β : Type}
    {f : α → Option β}
    {g : α → β}
    {xs : List α}
    (hEach : ∀ x ∈ xs, f x = some (g x)) :
    xs.mapM f = some (xs.map g) := by
  induction xs with
  | nil => rfl
  | cons x xs ih =>
      rw [List.mapM_cons, hEach x List.mem_cons_self,
        ih fun y hMem => hEach y (List.mem_cons_of_mem _ hMem)]
      rfl

theorem rowAdds_eq
    {adds : CandidateMeta → Option (List Nat)}
    {keys : CandidateMeta → List Nat}
    (rows : List CandidateMeta)
    (hAdds : ∀ row, adds row = some (keys row))
    (i : Nat) :
    rowAdds adds rows i = some ((rows[i]?).elim [] keys) := by
  unfold rowAdds
  split_ifs with hInside
  · rw [List.getElem?_eq_getElem hInside]
    exact hAdds rows[i]
  · rw [List.getElem?_eq_none (Nat.le_of_not_lt hInside)]
    rfl

/- Threads enough read every row once. -/
theorem flatMap_range_rows
    {keys : CandidateMeta → List Nat}
    {n : Nat}
    (rows : List CandidateMeta)
    (hCovers : rows.length ≤ n) :
    ((List.range n).flatMap fun i => (rows[i]?).elim [] keys) =
      rows.flatMap keys := by
  induction n generalizing rows with
  | zero =>
      rw [List.length_eq_zero_iff.mp (Nat.le_zero.mp hCovers)]
      rfl
  | succ n ih =>
      rw [List.range_succ_eq_map, List.flatMap_cons,
        List.flatMap_map]
      cases rows with
      | nil =>
          simp
      | cons row rows =>
          have hRest :=
            ih rows (by rw [List.length_cons] at hCovers; omega)
          rw [List.flatMap_cons, ← hRest]
          rfl

theorem flatMap_ite
    {α β : Type}
    (keep : α → Bool)
    (f : α → List β)
    (xs : List α) :
    (xs.flatMap fun x => if keep x = true then f x else []) =
      (xs.filter keep).flatMap f := by
  induction xs with
  | nil => rfl
  | cons x xs ih =>
      rw [List.flatMap_cons, ih]
      cases hKeep : keep x with
      | true =>
          rw [List.filter_cons_of_pos hKeep, List.flatMap_cons]
          rfl
      | false =>
          rw [List.filter_cons_of_neg (by simp [hKeep])]
          rfl

/- The adds of a shard are the bins of the rows of the union. -/
theorem SortedBanks.adds_perm
    {n : Nat}
    (hBanks : SortedBanks a b)
    (hFirst : a.length ≤ n)
    (hSecond : b.length ≤ n) :
    ∃ adds,
      (List.range n).mapM (addsOf a b) = some adds ∧
        adds.flatten.Perm ((unionRows a b).flatMap binned) := by
  let own (i : Nat) : List Nat :=
    (a[i]?).elim [] fun row => binned (mergeRow b row)
  let other (i : Nat) : List Nat :=
    (b[i]?).elim [] fun row =>
      if (lookup a row.hash).isNone = true then binned row else []
  have hEach :
      ∀ i ∈ List.range n,
        addsOf a b i = some (own i ++ other i) := by
    intro i _
    rw [addsOf, rowAdds_eq a hBanks.ownAdds_eq,
      rowAdds_eq b hBanks.otherAdds_eq]
    rfl
  refine ⟨_, option_mapM_eq_some hEach, ?_⟩
  rw [← List.flatMap_def]
  refine (List.flatMap_append_perm _ own other).symm.trans ?_
  rw [flatMap_range_rows a hFirst, flatMap_range_rows b hSecond,
    unionRows, List.flatMap_append, List.flatMap_map]
  refine List.Perm.append_left _ ?_
  rw [flatMap_ite]

theorem count_flatMap_binned
    {s : Nat}
    (rows : List CandidateMeta)
    (hBin : s < scoreBinCount) :
    (rows.flatMap binned).count s =
      rows.countP fun row => row.scoreKey.toNat = s := by
  induction rows with
  | nil => rfl
  | cons row rows ih =>
      rw [List.flatMap_cons, List.count_append, ih,
        List.countP_cons, Nat.add_comm]
      congr 1
      unfold binned
      by_cases hScore : row.scoreKey.toNat = s
      · rw [if_pos (by omega), hScore]
        simp
      · split
        · simp [hScore]
        · simp [hScore]

end ExactBankHistogram

----------------
-- The Histogram
----------------

/-
  On banks that increase in the hash no read leaves a bank, and
  every bin counts the rows of the reference unions.

  The blocks are those of a launch the device takes: 1 to 65535
  shards, and a capacity of 1 to 2^32 - 256, for which the number
  of blocks of a bank does not wrap. A launch of another size is
  refused before a thread runs, and the function throws.
-/
theorem thresholdBuildExactBankUnionHistogram_spec
    (grouping : WarpGrouping)
    (rows : Nat → CandidateMeta)
    {counts : Nat → Nat}
    {shards capacity : Nat}
    (hCounts :
      ∀ physical < 2 * shards, counts physical ≤ capacity)
    (hSorted :
      ∀ physical < 2 * shards,
        (bankRows rows counts capacity physical).Pairwise
          fun x y => x.hash < y.hash) :
    ∃ hist,
      thresholdBuildExactBankUnionHistogram grouping rows counts
          shards capacity =
        some hist ∧
      ∀ s < scoreBinCount,
        hist s =
          ((List.range shards).map fun logical =>
            (uniqueUnionReference
              (bankRows rows counts capacity (logical * 2))
              (bankRows rows counts capacity
                (logical * 2 + 1))).countP
              fun row => row.scoreKey.toNat = s).sum := by
  have hShard :
      ∀ logical ∈ List.range shards,
        ∃ adds,
          shardAdds rows counts capacity logical = some adds ∧
            ∀ s < scoreBinCount,
              adds.count s =
                (uniqueUnionReference
                  (bankRows rows counts capacity (logical * 2))
                  (bankRows rows counts capacity
                    (logical * 2 + 1))).countP
                  fun row => row.scoreKey.toNat = s := by
    intro logical hMem
    have hLogical := List.mem_range.mp hMem
    have hBanks :
        SortedBanks
          (bankRows rows counts capacity (logical * 2))
          (bankRows rows counts capacity (logical * 2 + 1)) :=
      ⟨hSorted _ (by omega), hSorted _ (by omega)⟩
    have hCover : capacity ≤ 256 * ((capacity + 255) / 256) := by
      omega
    have hFits :
        ∀ physical < 2 * shards,
          (bankRows rows counts capacity physical).length ≤
            256 * ((capacity + 255) / 256) := by
      intro physical hPhysical
      rw [bankRows, length_firstN]
      exact (hCounts physical hPhysical).trans hCover
    rcases hBanks.adds_perm (hFits _ (by omega))
        (hFits _ (by omega)) with
      ⟨adds, hRun, hPerm⟩
    refine ⟨adds.flatten, ?_, ?_⟩
    · rw [shardAdds, hRun]
      rfl
    · intro s hBin
      rw [hPerm.count_eq, count_flatMap_binned _ hBin]
      exact hBanks.unionRows_perm.countP_eq _
  choose! adds hRun hCount using hShard
  have hAll := option_mapM_eq_some hRun
  refine ⟨_, by
    rw [thresholdBuildExactBankUnionHistogram, hAll]
    rfl, ?_⟩
  intro s hBin
  rw [foldl_warpAdd, Nat.zero_add, (grouping.perm _).count_eq,
    List.count_flatten, List.map_map]
  congr 1
  exact
    List.map_congr_left fun logical hMem =>
      hCount logical hMem s hBin

/- One warp for all adds. -/
def oneWarp : WarpGrouping where
  run keys := [keys]
  perm keys := by
    rw [List.flatten_singleton]

/- Two banks with a common hash. -/
def sharedRows : Nat → CandidateMeta
  | 0 => ⟨⟨1, 0⟩, 7, 5, 0⟩
  | 1 => ⟨⟨4, 0⟩, 8, 2, 0⟩
  | 2 => ⟨⟨1, 0⟩, 9, 3, 0⟩
  | 3 => ⟨⟨2, 0⟩, 9, 3, 0⟩
  | _ => ⟨⟨0, 0⟩, 0, 0, 0⟩

theorem thresholdBuildExactBankUnionHistogram_shared :
    ∃ hist,
      thresholdBuildExactBankUnionHistogram oneWarp sharedRows
          (fun _ => 2) 1 2 =
        some hist ∧
      ∀ s < scoreBinCount,
        hist s =
          ((List.range 1).map fun logical =>
            (uniqueUnionReference
              (bankRows sharedRows (fun _ => 2) 2 (logical * 2))
              (bankRows sharedRows (fun _ => 2) 2
                (logical * 2 + 1))).countP
              fun row => row.scoreKey.toNat = s).sum :=
  thresholdBuildExactBankUnionHistogram_spec oneWarp sharedRows
    (by decide) (by decide)

end BeamSearch
