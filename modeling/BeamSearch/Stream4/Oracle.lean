import BeamSearch.Core.Types
import BeamSearch.Lib.KeyedMin

/-
  The host oracle of Stream 4.

  `stream4ThresholdSortDedup` drops the rows above a threshold,
  sorts by hash and candidate order and keeps the first row of
  every hash. It is a reduction in the sense of `KeyedMin`: up
  to the threshold it loses no hash and no winner.

  Main declarations:
    * `stream4ThresholdSortDedup`
    * `uniqueUnionReference`
    * `mem_stream4ThresholdSortDedup_iff`
    * `eq_stream4ThresholdSortDedup`
-/

namespace BeamSearch

open KeyedMin

----------------
-- The Comparator And The Oracle
----------------

/- The comparator handed to the sort: hash first, then candidate order. -/
def sortLess (a b : CandidateMeta) : Bool :=
  if ¬ a.hash = b.hash then
    hashLess a.hash b.hash
  else
    candidateBetter a b

/-
  Sorting by a strict order. Rows the comparator does not tell
  apart are equal, so every sorted permutation is this one.
-/
def sortByLess (xs : List CandidateMeta) : List CandidateMeta :=
  xs.insertionSort fun a b => sortLess b a = false

/-
  The oracle of the tests: filter, sort, and the first row of
  each hash.
-/
def stream4ThresholdSortDedup
    (cleanAndDirty : List CandidateMeta)
    (threshold : UInt32) : List CandidateMeta :=
  let filtered :=
    cleanAndDirty.filter (fun c => c.scoreKey ≤ threshold)
  firstOfRuns CandidateMeta.hash (sortByLess filtered)

/- The union without a threshold. -/
def uniqueUnionReference
    (a b : List CandidateMeta) : List CandidateMeta :=
  stream4ThresholdSortDedup (a ++ b) uint32Max

----------------
-- Order Facts
----------------

theorem not_sortLess_iff (a b : CandidateMeta) :
    sortLess b a = false ↔
      a.hash < b.hash ∨
        (a.hash = b.hash ∧ a.rank ≤ b.rank) := by
  unfold sortLess
  by_cases hHash : b.hash = a.hash
  · have hBetter := candidateBetter_iff b a
    rw [if_neg (not_not.mpr hHash), Bool.eq_false_iff, ne_eq,
      hBetter, not_lt, hHash]
    simp
  · have hLess := hashLess_iff b.hash a.hash
    rw [if_pos hHash, Bool.eq_false_iff, ne_eq, hLess, not_lt,
      le_iff_lt_or_eq]
    have hNe : a.hash ≠ b.hash := fun hEq => hHash hEq.symm
    simp [hNe]

/- Of two rows one is not behind the other. -/
instance sortLess_total :
    Std.Total fun a b : CandidateMeta => sortLess b a = false :=
  ⟨fun a b => by
    simp only [not_sortLess_iff]
    rcases lt_trichotomy a.hash b.hash with hLt | hEq | hGt
    · exact Or.inl (Or.inl hLt)
    · rcases le_total a.rank b.rank with hLe | hGe
      · exact Or.inl (Or.inr ⟨hEq, hLe⟩)
      · exact Or.inr (Or.inr ⟨hEq.symm, hGe⟩)
    · exact Or.inr (Or.inl hGt)⟩

/- The order is transitive, by the hash and then the rank. -/
instance sortLess_trans :
    IsTrans CandidateMeta fun a b => sortLess b a = false :=
  ⟨fun a b c hFirst hSecond => by
    rw [not_sortLess_iff] at hFirst hSecond ⊢
    rcases hFirst with hAb | ⟨hAb, hRankAb⟩
    · rcases hSecond with hBc | ⟨hBc, -⟩
      · exact Or.inl (hAb.trans hBc)
      · exact Or.inl (hBc ▸ hAb)
    · rcases hSecond with hBc | ⟨hBc, hRankBc⟩
      · exact Or.inl (hAb ▸ hBc)
      · exact Or.inr ⟨hAb.trans hBc, hRankAb.trans hRankBc⟩⟩

theorem mem_sortByLess {xs : List CandidateMeta} {c : CandidateMeta} :
    c ∈ sortByLess xs ↔ c ∈ xs :=
  List.mem_insertionSort _

theorem sortByLess_pairwise (xs : List CandidateMeta) :
    (sortByLess xs).Pairwise fun a b =>
      a.hash < b.hash ∨ (a.hash = b.hash ∧ a.rank ≤ b.rank) :=
  (List.pairwise_insertionSort
      (fun a b => sortLess b a = false) xs).imp
    fun hSorted => (not_sortLess_iff _ _).mp hSorted

/- Rows within a threshold. -/
def Within (threshold : UInt32) (c : CandidateMeta) : Prop :=
  c.scoreKey ≤ threshold

/- Whether a row is within the threshold can be computed. -/
instance (threshold : UInt32) : DecidablePred (Within threshold) :=
  fun c => inferInstanceAs (Decidable (c.scoreKey ≤ threshold))

theorem within_downClosed (threshold : UInt32) :
    DownClosed CandidateMeta.rank (Within threshold) :=
  fun _ _ hRank hWithin =>
    UInt32.le_trans
      (CandidateMeta.scoreKey_le_of_rank_le hRank) hWithin

theorem rank_separates :
    RankSeparates CandidateMeta.hash CandidateMeta.rank :=
  fun _ _ => CandidateMeta.eq_of_hash_of_rank

theorem within_uint32Max (c : CandidateMeta) :
    Within uint32Max c :=
  le_uint32Max c.scoreKey

----------------
-- The Oracle As A Reduction
----------------

/- One shard's reductions: same hashes, no worse rows, up to a threshold. -/
abbrev ReducesTo
    (threshold : UInt32)
    (xs ys : List CandidateMeta) : Prop :=
  Reduces CandidateMeta.hash CandidateMeta.rank
    (Within threshold) xs ys

/- The best rows of their hashes within a threshold. -/
abbrev IsBest
    (threshold : UInt32)
    (xs : List CandidateMeta)
    (c : CandidateMeta) : Prop :=
  IsWinner CandidateMeta.hash CandidateMeta.rank
    (Within threshold) xs c

theorem stream4ThresholdSortDedup_pairwise
    (xs : List CandidateMeta)
    (threshold : UInt32) :
    (stream4ThresholdSortDedup xs threshold).Pairwise
      fun a b => a.hash < b.hash := by
  apply firstOfRuns_pairwise
  refine (sortByLess_pairwise _).imp ?_
  rintro a b (hLt | ⟨hEq, -⟩)
  · exact hLt.le
  · exact hEq.le

theorem stream4ThresholdSortDedup_reduces_filter
    (xs : List CandidateMeta)
    (threshold : UInt32) :
    Reduces CandidateMeta.hash CandidateMeta.rank
      (fun _ => True)
      (stream4ThresholdSortDedup xs threshold)
      (xs.filter (fun c => c.scoreKey ≤ threshold)) := by
  have hRuns :
      Reduces CandidateMeta.hash CandidateMeta.rank
        (fun _ => True)
        (stream4ThresholdSortDedup xs threshold)
        (sortByLess
          (xs.filter (fun c => c.scoreKey ≤ threshold))) := by
    apply firstOfRuns_reduces
    refine (sortByLess_pairwise _).imp ?_
    rintro a b (hLt | ⟨-, hRank⟩) hEq
    · exact absurd hEq hLt.ne
    · exact hRank
  exact hRuns.trans (fun _ _ _ _ => trivial)
    (Reduces.of_mem_iff fun _ => mem_sortByLess)

theorem within_of_mem_stream4ThresholdSortDedup
    {xs : List CandidateMeta}
    {threshold : UInt32}
    {c : CandidateMeta}
    (hMem : c ∈ stream4ThresholdSortDedup xs threshold) :
    Within threshold c := by
  have hFilter :=
    (stream4ThresholdSortDedup_reduces_filter
      xs threshold).subset hMem
  exact of_decide_eq_true (List.mem_filter.mp hFilter).2

/- The oracle loses nothing that matters to a threshold at or below its own. -/
theorem stream4ThresholdSortDedup_reducesTo
    (xs : List CandidateMeta)
    {threshold final : UInt32}
    (hFinal : final ≤ threshold) :
    ReducesTo final
      (stream4ThresholdSortDedup xs threshold) xs := by
  have hFiltered :
      ReducesTo final
        (xs.filter (fun c => c.scoreKey ≤ threshold)) xs :=
    Reduces.filter (Q := Within threshold)
      (fun _ hWithin => UInt32.le_trans hWithin hFinal) xs
  have hSorted :
      ReducesTo final
        (stream4ThresholdSortDedup xs threshold)
        (xs.filter (fun c => c.scoreKey ≤ threshold)) :=
    (stream4ThresholdSortDedup_reduces_filter
      xs threshold).mono fun _ _ => trivial
  exact hSorted.trans (within_downClosed final) hFiltered

/- A row is output exactly when it is the best of its hash within the threshold. -/
theorem mem_stream4ThresholdSortDedup_iff
    (xs : List CandidateMeta)
    (threshold : UInt32)
    (c : CandidateMeta) :
    c ∈ stream4ThresholdSortDedup xs threshold ↔
      IsBest threshold xs c := by
  rw [mem_iff_isWinner_of_pairwise CandidateMeta.rank
    (stream4ThresholdSortDedup_pairwise xs threshold)
    (fun _ => within_of_mem_stream4ThresholdSortDedup)]
  exact
    (stream4ThresholdSortDedup_reducesTo xs
      (UInt32.le_refl threshold)).isWinner_iff
        (within_downClosed threshold) rank_separates c

/- Hash-sorted lists with the best rows of `xs` are the oracle's output. -/
theorem eq_stream4ThresholdSortDedup
    {xs ys : List CandidateMeta}
    {threshold : UInt32}
    (hSorted : ys.Pairwise fun a b => a.hash < b.hash)
    (hBest : ∀ c, c ∈ ys ↔ IsBest threshold xs c) :
    ys = stream4ThresholdSortDedup xs threshold := by
  have hIrrefl :
      Std.Irrefl fun a b : CandidateMeta => a.hash < b.hash :=
    ⟨fun a => lt_irrefl a.hash⟩
  have hAntisymm :
      Std.Antisymm fun a b : CandidateMeta => a.hash < b.hash :=
    ⟨fun _ _ hLt hGt => absurd hLt hGt.not_gt⟩
  refine hSorted.eq_of_mem_iff
    (stream4ThresholdSortDedup_pairwise xs threshold) ?_
  intro c
  rw [hBest, mem_stream4ThresholdSortDedup_iff]

/- Lists that reduce to one another up to the threshold have one output. -/
theorem stream4ThresholdSortDedup_eq_of_reducesTo
    {xs ys : List CandidateMeta}
    {threshold : UInt32}
    (hReduces : ReducesTo threshold xs ys) :
    stream4ThresholdSortDedup xs threshold =
      stream4ThresholdSortDedup ys threshold := by
  apply eq_stream4ThresholdSortDedup
    (stream4ThresholdSortDedup_pairwise xs threshold)
  intro c
  rw [mem_stream4ThresholdSortDedup_iff]
  exact hReduces.isWinner_iff (within_downClosed threshold)
    rank_separates c

/- Every hash within the threshold is kept. -/
theorem exists_hash_mem_stream4ThresholdSortDedup_iff
    (xs : List CandidateMeta)
    (threshold : UInt32)
    (h : Hash128) :
    (∃ c ∈ stream4ThresholdSortDedup xs threshold, c.hash = h) ↔
      ∃ c ∈ xs, Within threshold c ∧ c.hash = h := by
  have hKeys :=
    (stream4ThresholdSortDedup_reducesTo xs
      (UInt32.le_refl threshold)).exists_key_iff
        (within_downClosed threshold) h
  rw [← hKeys]
  constructor
  · rintro ⟨c, hMem, hHash⟩
    exact ⟨c, hMem,
      within_of_mem_stream4ThresholdSortDedup hMem, hHash⟩
  · rintro ⟨c, hMem, -, hHash⟩
    exact ⟨c, hMem, hHash⟩

end BeamSearch
