import BeamSearch.Lib.Cdf
import Mathlib.Order.Interval.Finset.Nat

/-
  Block-wise stream compaction.

  A kernel marks the entries it keeps, every block of 256
  threads counts its marks by a tree reduction, one thread scans
  the block counts, and every kept entry is written behind the
  kept entries before it. The result is the filtered list.

  Main declarations:
    * `treeReduce_zero`
    * `hillisSteele_apply`
    * `scanBlockCounts_spec`
    * `compactDest_eq`
    * `firstN_scatter`
-/

namespace Compaction

open Cdf Finset

universe u

variable {α : Type u}
variable {mark dest : Nat → Nat}

----------------
-- Arrays And Their Leading Entries
----------------

/- The first `n` entries of an array. -/
def firstN (arr : Nat → α) (n : Nat) : List α :=
  (List.range n).map arr

/- Write a list to the front of an array. -/
def writeFirst (xs : List α) (arr : Nat → α) : Nat → α :=
  fun i => (xs[i]?).getD (arr i)

@[simp] theorem length_firstN (arr : Nat → α) (n : Nat) :
    (firstN arr n).length = n := by
  simp [firstN]

/- One item more. -/
theorem firstN_succ (arr : Nat → α) (n : Nat) :
    firstN arr (n + 1) = firstN arr n ++ [arr n] := by
  simp [firstN, List.range_succ]

/- The list reads the first items only. -/
theorem firstN_congr
    {a b : Nat → α}
    {n : Nat}
    (hEq : ∀ i < n, a i = b i) :
    firstN a n = firstN b n := by
  apply List.map_congr_left
  intro i hMem
  exact hEq i (List.mem_range.mp hMem)

/- The items of the list. -/
theorem mem_firstN_iff
    {arr : Nat → α}
    {n : Nat}
    {a : α} :
    a ∈ firstN arr n ↔ ∃ i < n, arr i = a := by
  simp [firstN]

/- An item at its place. -/
theorem getElem?_firstN
    (arr : Nat → α)
    {n i : Nat}
    (hLt : i < n) :
    (firstN arr n)[i]? = some (arr i) := by
  simp [firstN, hLt]

/- An array that follows a list's images starts with them. -/
theorem firstN_eq_map
    {β : Type u}
    {arr : Nat → β}
    {xs : List α}
    {f : α → β}
    (hAt :
      ∀ i < xs.length, ∃ a, xs[i]? = some a ∧ arr i = f a) :
    firstN arr xs.length = xs.map f := by
  apply List.ext_getElem?
  intro i
  by_cases hLt : i < xs.length
  · rcases hAt i hLt with ⟨a, hSome, hValue⟩
    rw [getElem?_firstN arr hLt, List.getElem?_map, hSome,
      hValue]
    rfl
  · rw [List.getElem?_eq_none, List.getElem?_eq_none]
    · rw [List.length_map]
      omega
    · rw [length_firstN]
      omega

/- What was written is read. -/
theorem firstN_writeFirst
    (xs : List α)
    (arr : Nat → α) :
    firstN (writeFirst xs arr) xs.length = xs := by
  apply List.ext_getElem?
  intro i
  by_cases hLt : i < xs.length
  · rw [getElem?_firstN _ hLt, writeFirst,
      List.getElem?_eq_getElem hLt]
    rfl
  · rw [List.getElem?_eq_none (by simpa using hLt),
      List.getElem?_eq_none (not_lt.mp hLt)]

/- Keys and values written to separate arrays read back as pairs. -/
theorem firstN_writeFirst_pairs
    {β : Type u}
    (xs : List (α × β))
    (a : Nat → α)
    (b : Nat → β) :
    firstN
        (fun i =>
          (writeFirst (xs.map Prod.fst) a i,
            writeFirst (xs.map Prod.snd) b i))
        xs.length = xs := by
  apply List.ext_getElem?
  intro i
  by_cases hLt : i < xs.length
  · rw [getElem?_firstN _ hLt]
    simp [writeFirst, hLt]
  · rw [List.getElem?_eq_none (by simpa using hLt),
      List.getElem?_eq_none (not_lt.mp hLt)]

/- The first items in two parts. -/
theorem firstN_add
    (arr : Nat → α)
    (m n : Nat) :
    firstN arr (m + n) =
      firstN arr m ++ firstN (fun i => arr (m + i)) n := by
  simp [firstN, List.range_add, Function.comp_def]

/- The list of images. -/
theorem map_firstN
    {β : Type u}
    (f : α → β)
    (arr : Nat → α)
    (n : Nat) :
    (firstN arr n).map f = firstN (fun i => f (arr i)) n := by
  simp [firstN, Function.comp_def]

/- A constant array. -/
theorem firstN_const (a : α) (n : Nat) :
    firstN (fun _ => a) n = List.replicate n a := by
  simp [firstN, List.map_const']

----------------
-- Reductions And Scans Inside A Block
----------------

/-
  Strides `2 ^ (k - 1), …, 2, 1`: the lower half of the lanes
  adds the upper half, with a barrier after every stride.
-/
def treeReduce : Nat → (Nat → Nat) → (Nat → Nat)
  | 0, lanes => lanes
  | k + 1, lanes =>
      treeReduce k fun tid =>
        if tid < 2 ^ k then lanes tid + lanes (tid + 2 ^ k)
        else lanes tid

/- The tree leaves the sum of all lanes in the first one. -/
theorem treeReduce_zero (k : Nat) (lanes : Nat → Nat) :
    treeReduce k lanes 0 = below lanes (2 ^ k) := by
  induction k generalizing lanes with
  | zero => simp [treeReduce, below]
  | succ k ih =>
      rw [treeReduce, ih, Nat.pow_succ, Nat.mul_two]
      unfold below
      rw [sum_range_add, ← sum_add_distrib]
      apply sum_congr rfl
      intro tid hMem
      simp only [if_pos (mem_range.mp hMem), Nat.add_comm tid]

/- Offsets `1, 2, …, 2 ^ (k - 1)`: every lane adds the lane an offset below. -/
def hillisSteele : Nat → (Nat → Nat) → (Nat → Nat)
  | 0, lanes => lanes
  | k + 1, lanes => fun tid =>
      hillisSteele k lanes tid +
        if 2 ^ k ≤ tid then hillisSteele k lanes (tid - 2 ^ k)
        else 0

/- After `k` rounds a lane holds the sum of the last `2 ^ k` lanes. -/
theorem hillisSteele_add_below
    (k : Nat)
    (lanes : Nat → Nat)
    (tid : Nat) :
    hillisSteele k lanes tid + below lanes (tid + 1 - 2 ^ k) =
      below lanes (tid + 1) := by
  induction k generalizing tid with
  | zero =>
      rw [hillisSteele, Nat.pow_zero, Nat.add_sub_cancel,
        below_succ, Nat.add_comm]
  | succ k ih =>
      have hPow : 2 ^ (k + 1) = 2 ^ k + 2 ^ k := by
        rw [Nat.pow_succ, Nat.mul_two]
      have hPos : 0 < 2 ^ k := Nat.two_pow_pos k
      have hHere := ih tid
      simp only [hillisSteele]
      by_cases hOffset : 2 ^ k ≤ tid
      · have hLeft := ih (tid - 2 ^ k)
        have hBase :
            tid - 2 ^ k + 1 = tid + 1 - 2 ^ k := by
          omega
        have hFar :
            tid + 1 - 2 ^ k - 2 ^ k = tid + 1 - 2 ^ (k + 1) := by
          omega
        rw [hBase, hFar] at hLeft
        rw [if_pos hOffset]
        omega
      · have hNone : tid + 1 - 2 ^ (k + 1) = 0 := by omega
        have hNow : tid + 1 - 2 ^ k = 0 := by omega
        rw [hNow, below_zero] at hHere
        rw [if_neg hOffset, hNone, below_zero]
        exact hHere

/- After the last step each lane has the sum up to itself. -/
theorem hillisSteele_apply
    (k : Nat)
    (lanes : Nat → Nat)
    {tid : Nat}
    (hLt : tid < 2 ^ k) :
    hillisSteele k lanes tid = below lanes (tid + 1) := by
  have hSum := hillisSteele_add_below k lanes tid
  have hZero : tid + 1 - 2 ^ k = 0 := by omega
  rw [hZero, below_zero] at hSum
  exact hSum

----------------
-- Block Counts And Offsets
----------------

/- The marks of one block of 256 threads, counted by its first thread. -/
def blockCount (mark : Nat → Nat) (block : Nat) : Nat :=
  treeReduce 8 (fun tid => mark (256 * block + tid)) 0

/- The marks of a thread's block up to and including the thread. -/
def blockInclusive (mark : Nat → Nat) (i : Nat) : Nat :=
  hillisSteele 8 (fun tid => mark (256 * (i / 256) + tid))
    (i % 256)

/- The count of a block is what it adds to the sum. -/
theorem blockCount_add_below
    (mark : Nat → Nat)
    (block : Nat) :
    below mark (256 * block) + blockCount mark block =
      below mark (256 * (block + 1)) := by
  have hSplit := sum_range_add mark (256 * block) (2 ^ 8)
  have hNext : 256 * (block + 1) = 256 * block + 2 ^ 8 := by
    omega
  unfold blockCount
  rw [treeReduce_zero]
  unfold below
  rw [← hSplit, hNext]

/- The inclusive count inside a block, likewise. -/
theorem blockInclusive_add_below
    (mark : Nat → Nat)
    (i : Nat) :
    below mark (256 * (i / 256)) + blockInclusive mark i =
      below mark (i + 1) := by
  have hLane : i % 256 < 2 ^ 8 := by omega
  have hIndex : i + 1 = 256 * (i / 256) + (i % 256 + 1) := by
    omega
  unfold blockInclusive
  rw [hillisSteele_apply 8 _ hLane, hIndex]
  unfold below
  rw [sum_range_add mark (256 * (i / 256)) (i % 256 + 1)]

/- The running total of a scan and what it has written. -/
structure BlockScan where
  running : Nat
  offsets : Nat → Nat

/- One block more: its offset is the total before it. -/
def scanStep
    (counts : Nat → Nat)
    (scan : BlockScan)
    (block : Nat) : BlockScan :=
  { running := scan.running + counts block
    offsets :=
      Function.update scan.offsets block scan.running }

/- The sequential exclusive scan of the block counts. -/
def scanBlockCounts
    (counts offsets : Nat → Nat)
    (blocks : Nat) : BlockScan :=
  (List.range blocks).foldl (scanStep counts)
    { running := 0, offsets := offsets }

/- The scan writes to each block the sum before it. -/
theorem scanBlockCounts_spec
    (counts offsets : Nat → Nat)
    (blocks : Nat) :
    (scanBlockCounts counts offsets blocks).running =
        below counts blocks ∧
      ∀ block < blocks,
        (scanBlockCounts counts offsets blocks).offsets block =
          below counts block := by
  induction blocks with
  | zero =>
      refine ⟨by simp [scanBlockCounts], ?_⟩
      intro block hLt
      omega
  | succ blocks ih =>
      rcases ih with ⟨hRunning, hOffsets⟩
      have hSucc :
          scanBlockCounts counts offsets (blocks + 1) =
            scanStep counts
              (scanBlockCounts counts offsets blocks) blocks := by
        simp [scanBlockCounts, List.range_succ]
      rw [hSucc]
      constructor
      · rw [scanStep, hRunning, below_succ]
      · intro block hLt
        by_cases hEq : block = blocks
        · subst hEq
          simp [scanStep, hRunning]
        · have hOld := hOffsets block (by omega)
          simpa [scanStep, Function.update_of_ne hEq] using hOld

/- Block counts before a block add up to the marks before its first thread. -/
theorem below_blockCount
    (mark counts : Nat → Nat)
    (blocks : Nat)
    (hCounts :
      ∀ block < blocks, counts block = blockCount mark block) :
    below counts blocks = below mark (256 * blocks) := by
  induction blocks with
  | zero => simp
  | succ blocks ih =>
      rw [below_succ, ih fun block hLt => hCounts block (by omega),
        hCounts blocks (by omega), blockCount_add_below]

/- Where a thread writes: its block's offset plus the marks before it in the block. -/
def compactDest
    (mark offsets : Nat → Nat)
    (i : Nat) : Nat :=
  offsets (i / 256) + (blockInclusive mark i - mark i)

/- A thread's destination is the number of marks before it. -/
theorem compactDest_eq
    (mark counts offsets : Nat → Nat)
    {blocks i : Nat}
    (hLt : i < 256 * blocks)
    (hCounts :
      ∀ block < blocks, counts block = blockCount mark block) :
    compactDest mark
        (scanBlockCounts counts offsets blocks).offsets i =
      below mark i := by
  have hBlock : i / 256 < blocks := by omega
  have hOffset :=
    (scanBlockCounts_spec counts offsets blocks).2
      (i / 256) hBlock
  have hBefore :=
    below_blockCount mark counts (i / 256)
      fun block hBlockLt => hCounts block (by omega)
  have hInclusive := blockInclusive_add_below mark i
  rw [below_succ] at hInclusive
  have hMono :=
    below_mono mark (show 256 * (i / 256) ≤ i by omega)
  unfold compactDest
  rw [hOffset, hBefore]
  omega

----------------
-- Scattering The Kept Entries
----------------

/- Every marked thread writes its value to its destination. -/
def scatter
    (mark dest : Nat → Nat)
    (value : Nat → α)
    (output : Nat → α)
    (n : Nat) : Nat → α :=
  (List.range n).foldl
    (fun out i =>
      if mark i ≠ 0 then
        Function.update out (dest i) (value i)
      else
        out)
    output

/- One thread more of the scatter. -/
theorem scatter_succ
    (mark dest : Nat → Nat)
    (value output : Nat → α)
    (n : Nat) :
    scatter mark dest value output (n + 1) =
      if mark n ≠ 0 then
        Function.update (scatter mark dest value output n)
          (dest n) (value n)
      else
        scatter mark dest value output n := by
  simp only [scatter, List.range_succ, List.foldl_append,
    List.foldl_cons, List.foldl_nil]

/- The values of the marked threads in thread order. -/
def kept
    (mark : Nat → Nat)
    (value : Nat → α)
    (n : Nat) : List α :=
  ((List.range n).filter fun i => mark i ≠ 0).map value

/- One item more is kept or not. -/
theorem kept_succ
    (mark : Nat → Nat)
    (value : Nat → α)
    (n : Nat) :
    kept mark value (n + 1) =
      if mark n ≠ 0 then kept mark value n ++ [value n]
      else kept mark value n := by
  unfold kept
  rw [List.range_succ, List.filter_append, List.map_append]
  by_cases hMark : mark n ≠ 0
  · simp [hMark]
  · simp [hMark]

/- What is kept of two parts. -/
theorem kept_add
    (mark : Nat → Nat)
    (value : Nat → α)
    (m n : Nat) :
    kept mark value (m + n) =
      kept mark value m ++
        kept (fun i => mark (m + i)) (fun i => value (m + i))
          n := by
  unfold kept
  rw [List.range_add, List.filter_append, List.map_append,
    List.filter_map, List.map_map]
  rfl

/- Marking by a predicate keeps the filtered array. -/
theorem kept_eq_filter
    {value : Nat → α}
    {keep : α → Bool}
    {n m : Nat}
    (hLe : m ≤ n)
    (hKeep :
      ∀ i < n,
        mark i ≠ 0 ↔ i < m ∧ keep (value i) = true) :
    kept mark value n = (firstN value m).filter keep := by
  unfold kept firstN
  rw [List.filter_map]
  congr 1
  have hSplit :
      List.range n =
        List.range m ++
          (List.range (n - m)).map (m + ·) := by
    rw [← List.range_add, Nat.add_sub_cancel' hLe]
  rw [hSplit, List.filter_append]
  have hTail :
      ((List.range (n - m)).map (m + ·)).filter
          (fun i => mark i ≠ 0) = [] := by
    rw [List.filter_eq_nil_iff]
    intro i hMem
    rcases List.mem_map.mp hMem with ⟨j, hJ, rfl⟩
    have hRange := List.mem_range.mp hJ
    rw [decide_eq_true_iff, hKeep (m + j) (by omega)]
    omega
  rw [hTail, List.append_nil]
  apply List.filter_congr
  intro i hMem
  have hRange := List.mem_range.mp hMem
  have hIff := hKeep i (by omega)
  by_cases hValue : keep (value i) = true
  · simpa [hValue, hRange] using hIff
  · simpa [hValue] using hIff

/-
  With every mark at most one, scattering behind the marks
  before each thread lays out the kept values without gaps.
-/
theorem firstN_scatter
    (value output : Nat → α)
    (n : Nat)
    (hMark : ∀ i < n, mark i ≤ 1)
    (hDest : ∀ i < n, mark i ≠ 0 → dest i = below mark i) :
    firstN (scatter mark dest value output n) (below mark n) =
        kept mark value n ∧
      ∀ i, below mark n ≤ i →
        scatter mark dest value output n i = output i := by
  induction n with
  | zero => simp [firstN, kept, scatter]
  | succ n ih =>
      rcases ih (fun i hLt => hMark i (by omega))
          (fun i hLt => hDest i (by omega)) with
        ⟨hFirst, hRest⟩
      rw [scatter_succ, kept_succ, below_succ]
      by_cases hKeep : mark n ≠ 0
      · have hOne : mark n = 1 := by
          have hLe := hMark n (by omega)
          omega
        rw [if_pos hKeep, if_pos hKeep, hOne,
          hDest n (by omega) hKeep]
        constructor
        · rw [firstN_succ, Function.update_self, ← hFirst]
          congr 1
          apply firstN_congr
          intro i hLt
          rw [Function.update_of_ne (by omega)]
        · intro i hLe
          rw [Function.update_of_ne (by omega)]
          exact hRest i (by omega)
      · have hZero : mark n = 0 := not_not.mp hKeep
        rw [if_neg hKeep, if_neg hKeep, hZero, Nat.add_zero]
        exact ⟨hFirst, hRest⟩

/- As many are kept as there are marks. -/
theorem length_kept
    (value : Nat → α)
    (n : Nat)
    (hMark : ∀ i < n, mark i ≤ 1) :
    (kept mark value n).length = below mark n := by
  induction n with
  | zero => simp [kept]
  | succ n ih =>
      rw [kept_succ, below_succ]
      have hOld := ih fun i hLt => hMark i (by omega)
      have hLe := hMark n (by omega)
      by_cases hKeep : mark n ≠ 0
      · rw [if_pos hKeep, List.length_append, hOld,
          List.length_singleton]
        omega
      · rw [if_neg hKeep, hOld]
        omega

/-
  Count, scan and scatter together: the leading entries of the
  output are the kept values and the running total counts them.
-/
theorem firstN_compact
    (counts offsets : Nat → Nat)
    (value output : Nat → α)
    {blocks : Nat}
    (hMark : ∀ i, mark i ≤ 1)
    (hCounts :
      ∀ block < blocks, counts block = blockCount mark block) :
    (scanBlockCounts counts offsets blocks).running =
        (kept mark value (256 * blocks)).length ∧
      firstN
          (scatter mark
            (compactDest mark
              (scanBlockCounts counts offsets blocks).offsets)
            value output (256 * blocks))
          (kept mark value (256 * blocks)).length =
        kept mark value (256 * blocks) := by
  have hLength :
      (kept mark value (256 * blocks)).length =
        below mark (256 * blocks) :=
    length_kept value (256 * blocks) fun i _ => hMark i
  have hRunning :=
    (scanBlockCounts_spec counts offsets blocks).1
  rw [below_blockCount mark counts blocks hCounts] at hRunning
  refine ⟨hRunning.trans hLength.symm, ?_⟩
  rw [hLength]
  exact
    (firstN_scatter value output (256 * blocks)
      (fun i _ => hMark i)
      (fun i hLt _ =>
        compactDest_eq mark counts offsets hLt hCounts)).1

----------------
-- Scattering To Distinct Destinations
----------------

/- What is no destination stays. -/
theorem scatter_of_not_dest
    (value output : Nat → α)
    (n : Nat)
    {j : Nat}
    (hNot : ∀ i < n, mark i ≠ 0 → dest i ≠ j) :
    scatter mark dest value output n j = output j := by
  induction n with
  | zero => simp [scatter]
  | succ n ih =>
      have hOld := ih fun i hLt => hNot i (by omega)
      rw [scatter_succ]
      by_cases hMark : mark n ≠ 0
      · rw [if_pos hMark,
          Function.update_of_ne (hNot n (by omega) hMark).symm]
        exact hOld
      · rw [if_neg hMark]
        exact hOld

/-
  A destination that is only one thread's has that thread's
  value.
-/
theorem scatter_at_dest
    (value output : Nat → α)
    {n i : Nat}
    (hLt : i < n)
    (hMark : mark i ≠ 0)
    (hDistinct :
      ∀ j < n, mark j ≠ 0 → dest j = dest i → j = i) :
    scatter mark dest value output n (dest i) = value i := by
  induction n with
  | zero => omega
  | succ n ih =>
      rw [scatter_succ]
      by_cases hLast : i = n
      · subst hLast
        rw [if_pos hMark, Function.update_self]
      · have hOld :=
          ih (by omega) fun j hJ => hDistinct j (by omega)
        by_cases hMarkN : mark n ≠ 0
        · have hNe : dest i ≠ dest n := fun hEq =>
            hLast (hDistinct n (by omega) hMarkN hEq.symm).symm
          rw [if_pos hMarkN, Function.update_of_ne hNe]
          exact hOld
        · rw [if_neg hMarkN]
          exact hOld

----------------
-- Capped And Shifted Scatters
----------------

/- Keep only the first `limit` marks. -/
def cappedMark (mark : Nat → Nat) (limit i : Nat) : Nat :=
  if mark i ≠ 0 ∧ below mark i < limit then 1 else 0

/- A capped mark counts up to the limit. -/
theorem below_cappedMark
    (limit n : Nat)
    (hMark : ∀ i < n, mark i ≤ 1) :
    below (cappedMark mark limit) n = min (below mark n) limit := by
  induction n with
  | zero => simp
  | succ n ih =>
      have hOld := ih fun i hLt => hMark i (by omega)
      have hLe := hMark n (by omega)
      rw [below_succ, below_succ, hOld, cappedMark]
      split_ifs with hKeep
      · omega
      · by_cases hZero : mark n = 0
        · omega
        · have hFull : ¬ below mark n < limit :=
            fun hLt => hKeep ⟨hZero, hLt⟩
          omega

/- A capped mark keeps the first ones. -/
theorem kept_cappedMark
    (value : Nat → α)
    (limit n : Nat)
    (hMark : ∀ i < n, mark i ≤ 1) :
    kept (cappedMark mark limit) value n =
      (kept mark value n).take limit := by
  induction n with
  | zero => simp [kept]
  | succ n ih =>
      have hOld := ih fun i hLt => hMark i (by omega)
      have hLength :=
        length_kept value n fun i hLt => hMark i (by omega)
      rw [kept_succ, kept_succ, hOld]
      by_cases hZero : mark n ≠ 0
      · rw [if_pos hZero]
        by_cases hRoom : below mark n < limit
        · have hCapped : cappedMark mark limit n ≠ 0 := by
            simp [cappedMark, hZero, hRoom]
          rw [if_pos hCapped, List.take_of_length_le (by omega),
            List.take_of_length_le]
          rw [List.length_append, List.length_singleton]
          omega
        · have hCapped : ¬ cappedMark mark limit n ≠ 0 := by
            simp [cappedMark, hRoom]
          rw [if_neg hCapped, List.take_append_of_le_length]
          omega
      · have hCapped : ¬ cappedMark mark limit n ≠ 0 := by
          simp only [cappedMark, hZero, false_and, if_false,
            ne_eq, not_true_eq_false, not_false_eq_true]
        rw [if_neg hZero, if_neg hCapped]

/- The scatter reads destinations of marked threads only. -/
theorem scatter_congr
    {mark' dest' : Nat → Nat}
    (value output : Nat → α)
    (n : Nat)
    (hMark : ∀ i < n, mark i ≠ 0 ↔ mark' i ≠ 0)
    (hDest : ∀ i < n, mark i ≠ 0 → dest i = dest' i) :
    scatter mark dest value output n =
      scatter mark' dest' value output n := by
  induction n with
  | zero => rfl
  | succ n ih =>
      have hOld :=
        ih (fun i hLt => hMark i (by omega))
          (fun i hLt => hDest i (by omega))
      rw [scatter_succ, scatter_succ, hOld]
      by_cases hKeep : mark n ≠ 0
      · rw [if_pos hKeep,
          if_pos ((hMark n (Nat.lt_succ_self n)).mp hKeep),
          hDest n (Nat.lt_succ_self n) hKeep]
      · have hDrop : ¬ mark' n ≠ 0 := fun hKeep' =>
          hKeep ((hMark n (Nat.lt_succ_self n)).mpr hKeep')
        rw [if_neg hKeep, if_neg hDrop]

/- It reads values of marked threads only. -/
theorem scatter_value_congr
    {value value' : Nat → α}
    (output : Nat → α)
    (n : Nat)
    (hValue : ∀ i < n, mark i ≠ 0 → value i = value' i) :
    scatter mark dest value output n =
      scatter mark dest value' output n := by
  induction n with
  | zero => rfl
  | succ n ih =>
      have hOld := ih fun i hLt => hValue i (by omega)
      rw [scatter_succ, scatter_succ, hOld]
      by_cases hKeep : mark n ≠ 0
      · rw [if_pos hKeep, if_pos hKeep,
          hValue n (Nat.lt_succ_self n) hKeep]
      · rw [if_neg hKeep, if_neg hKeep]

/- Scattering behind a base leaves the entries before the base alone. -/
theorem scatter_shift
    (mark dest : Nat → Nat)
    (value output : Nat → α)
    (base n : Nat) :
    (∀ j < base,
      scatter mark (fun i => base + dest i) value output n j =
        output j) ∧
      ∀ j,
        scatter mark (fun i => base + dest i) value output n
            (base + j) =
          scatter mark dest value (fun k => output (base + k))
            n j := by
  constructor
  · intro j hLt
    apply scatter_of_not_dest
    intro i _ _
    omega
  · intro j
    induction n with
    | zero => rfl
    | succ n ih =>
        rw [scatter_succ, scatter_succ]
        by_cases hKeep : mark n ≠ 0
        · rw [if_pos hKeep, if_pos hKeep]
          by_cases hHit : j = dest n
          · subst hHit
            rw [Function.update_self, Function.update_self]
          · rw [Function.update_of_ne (by omega),
              Function.update_of_ne hHit]
            exact ih
        · rw [if_neg hKeep, if_neg hKeep]
          exact ih

/-
  Appending the first `limit` kept values behind `base` entries
  that stay in place.
-/
theorem firstN_scatter_capped
    (value output : Nat → α)
    (base limit n : Nat)
    (hMark : ∀ i < n, mark i ≤ 1) :
    firstN
        (scatter (cappedMark mark limit)
          (fun i => base + below mark i) value output n)
        (base + min (below mark n) limit) =
      firstN output base ++ (kept mark value n).take limit := by
  rcases scatter_shift (cappedMark mark limit) (below mark) value
      output base n with
    ⟨hBefore, hBehind⟩
  have hCappedLe :
      ∀ i < n, cappedMark mark limit i ≤ 1 := by
    intro i _
    unfold cappedMark
    split_ifs <;> omega
  have hCappedDest :
      ∀ i < n, cappedMark mark limit i ≠ 0 →
        below mark i = below (cappedMark mark limit) i := by
    intro i hLt hKeep
    rw [below_cappedMark limit i fun j hJ => hMark j (by omega)]
    by_contra hNe
    have hFull : ¬ below mark i < limit := by omega
    exact hKeep (by simp [cappedMark, hFull])
  have hScatter :=
    (firstN_scatter value (fun k => output (base + k)) n
      hCappedLe hCappedDest).1
  rw [below_cappedMark limit n hMark,
    kept_cappedMark value limit n hMark] at hScatter
  rw [firstN_add, ← hScatter]
  congr 1
  · exact firstN_congr hBefore
  · apply firstN_congr
    intro j _
    exact hBehind j

/- Values that name their place are kept with their places. -/
theorem kept_placed
    {β : Type u}
    (value : Nat → α)
    (named : α → Nat → β)
    (base n : Nat)
    (hMark : ∀ i < n, mark i ≤ 1) :
    kept mark
        (fun i => named (value i) (base + below mark i)) n =
      ((kept mark value n).zipIdx base).map
        fun p => named p.1 p.2 := by
  induction n with
  | zero => simp [kept]
  | succ n ih =>
      have hOld := ih fun i hLt => hMark i (by omega)
      have hLength :=
        length_kept value n fun i hLt => hMark i (by omega)
      rw [kept_succ, kept_succ, hOld]
      by_cases hKeep : mark n ≠ 0
      · rw [if_pos hKeep, if_pos hKeep, List.zipIdx_append,
          List.map_append, hLength]
        rfl
      · rw [if_neg hKeep, if_neg hKeep]

----------------
-- Segments Of Concatenations
----------------

/- Without marks nothing is kept. -/
theorem kept_eq_nil
    (value : Nat → α)
    (n : Nat)
    (hZero : ∀ i < n, mark i = 0) :
    kept mark value n = [] := by
  unfold kept
  rw [List.map_eq_nil_iff, List.filter_eq_nil_iff]
  intro i hMem
  simp [hZero i (List.mem_range.mp hMem)]

/- The length of lists behind each other. -/
theorem length_flatMap_range
    (xs : Nat → List α)
    (n : Nat) :
    ((List.range n).flatMap xs).length =
      below (fun i => (xs i).length) n := by
  induction n with
  | zero => simp
  | succ n ih =>
      rw [List.range_succ, List.flatMap_append,
        List.length_append, ih, below_succ]
      simp

/- Taking from a concatenation takes from every part what the parts before leave. -/
theorem flatMap_take_range
    (xs : Nat → List α)
    (limit n : Nat) :
    ((List.range n).flatMap fun i =>
        (xs i).take (limit - below (fun j => (xs j).length) i)) =
      ((List.range n).flatMap xs).take limit := by
  induction n with
  | zero => simp
  | succ n ih =>
      rw [List.range_succ, List.flatMap_append,
        List.flatMap_append, List.take_append, ih,
        length_flatMap_range]
      simp

/- A filter of lists behind each other. -/
theorem filter_flatMap_range
    (keep : α → Bool)
    (xs : Nat → List α)
    (n : Nat) :
    ((List.range n).flatMap xs).filter keep =
      (List.range n).flatMap fun i => (xs i).filter keep := by
  induction n with
  | zero => rfl
  | succ n ih =>
      rw [List.range_succ, List.flatMap_append,
        List.filter_append, ih, List.flatMap_append]
      simp

end Compaction
