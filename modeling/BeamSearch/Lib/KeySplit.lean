import BeamSearch.Lib.Compaction

/-
  Splitting the rows of an array by a key.

  A block of 256 threads walks an array in tiles and writes the
  rows of its key behind one another, to another array or over
  the array it reads. A sequential splitter keeps one cursor a
  key. Both lay out the rows of every key, key after key.

  Main declarations:
    * `compactTiles_spec`
    * `compactTiles_inPlace`
    * `below_stridedSum`
    * `prefixOffsets_spec`
    * `firstN_segments`
    * `firstN_placeAll`
-/

namespace KeySplit

open Cdf Compaction Finset

universe u

variable {α : Type u}

----------------
-- Marks Of Tiles
----------------

/- The sum from a base on. -/
theorem below_base_add
    (mark : Nat → Nat)
    (base n : Nat) :
    below mark (base + n) =
      below mark base + below (fun i => mark (base + i)) n :=
  sum_range_add mark base n

/-
  With marks of at most one there are no more marks than
  places.
-/
theorem below_le_self
    {mark : Nat → Nat}
    (hMark : ∀ i, mark i ≤ 1)
    (n : Nat) :
    below mark n ≤ n := by
  have hLe := below_le_mul (n := n) fun i _ => hMark i
  rw [Nat.mul_one] at hLe
  exact hLe

/- The marks of a tile up to and including a thread. -/
def tileScan (mark : Nat → Nat) (base tid : Nat) : Nat :=
  hillisSteele 8 (fun t => mark (base + t)) tid

/- The scan of a tile is the sum inside it. -/
theorem tileScan_eq
    (mark : Nat → Nat)
    (base : Nat)
    {tid : Nat}
    (hLt : tid < 256) :
    tileScan mark base tid =
      below (fun t => mark (base + t)) tid +
        mark (base + tid) := by
  unfold tileScan
  rw [hillisSteele_apply 8 _ hLt, below_succ]

----------------
-- One Tile
----------------

/- Every marked thread of a tile writes what it has loaded. -/
def scatterTile
    (mark : Nat → Nat)
    (candidate : Nat → α)
    (base offset running : Nat)
    (output : Nat → α) : Nat → α :=
  scatter (fun tid => mark (base + tid))
    (fun tid => offset + (running + tileScan mark base tid - 1))
    candidate output 256

/- A tile behind the marks before it fills exactly its part. -/
theorem scatterTile_spec
    {mark : Nat → Nat}
    (candidate output : Nat → α)
    (base offset : Nat)
    (hMark : ∀ i, mark i ≤ 1) :
    let written :=
      scatterTile mark candidate base offset (below mark base)
        output
    let size := below (fun tid => mark (base + tid)) 256
    firstN
          (fun r => written (offset + below mark base + r))
          size =
        kept (fun tid => mark (base + tid)) candidate 256 ∧
      ∀ j,
        j < offset + below mark base ∨
            offset + below mark base + size ≤ j →
          written j = output j := by
  intro written size
  have hWritten :
      written =
        scatter (fun tid => mark (base + tid))
          (fun tid =>
            offset + below mark base +
              below (fun t => mark (base + t)) tid)
          candidate output 256 := by
    apply scatter_congr
    · intro tid _
      exact Iff.rfl
    · intro tid hLt hKeep
      have hOne : mark (base + tid) = 1 := by
        have hLe := hMark (base + tid)
        omega
      rw [tileScan_eq mark base hLt, hOne]
      omega
  rcases scatter_shift (fun tid => mark (base + tid))
      (fun tid => below (fun t => mark (base + t)) tid)
      candidate output (offset + below mark base) 256 with
    ⟨hBefore, hBehind⟩
  rcases @firstN_scatter α (fun tid => mark (base + tid))
      (fun tid => below (fun t => mark (base + t)) tid)
      candidate
      (fun r => output (offset + below mark base + r)) 256
      (fun tid _ => hMark (base + tid)) (fun _ _ _ => rfl) with
    ⟨hFirst, hRest⟩
  rw [hWritten]
  constructor
  · rw [← hFirst]
    exact firstN_congr fun r _ => hBehind r
  · intro j hOutside
    rcases hOutside with hLt | hGe
    · exact hBefore j hLt
    · have hIndex :
          j =
            offset + below mark base +
              (j - (offset + below mark base)) := by
        omega
      rw [hIndex, hBehind]
      exact hRest _ (by omega)

----------------
-- All Tiles
----------------

/-
  The running count of the tiles and the array they write to.
-/
structure TileState (α : Type u) where
  running : Nat
  array : Nat → α

/- The loads of a tile stand before its writes. -/
def tileStep
    (mark : Nat → Nat)
    (load : (Nat → α) → Nat → α)
    (offset : Nat)
    (state : TileState α)
    (tile : Nat) : TileState α :=
  let base := 256 * tile
  { running := state.running + tileScan mark base 255
    array :=
      scatterTile mark (fun tid => load state.array (base + tid))
        base offset state.running state.array }

/-
  All tiles, one after the other. A later tile reads what the
  earlier ones wrote.
-/
def compactTiles
    (mark : Nat → Nat)
    (load : (Nat → α) → Nat → α)
    (offset tiles : Nat)
    (array : Nat → α) : TileState α :=
  (List.range tiles).foldl (tileStep mark load offset)
    { running := 0, array := array }

/- One tile more. -/
theorem compactTiles_succ
    (mark : Nat → Nat)
    (load : (Nat → α) → Nat → α)
    (offset tiles : Nat)
    (array : Nat → α) :
    compactTiles mark load offset (tiles + 1) array =
      tileStep mark load offset
        (compactTiles mark load offset tiles array) tiles := by
  unfold compactTiles
  rw [List.range_succ, List.foldl_append]
  rfl

/- The running count is the sum so far. -/
theorem running_compactTiles
    (mark : Nat → Nat)
    (load : (Nat → α) → Nat → α)
    (offset tiles : Nat)
    (array : Nat → α) :
    (compactTiles mark load offset tiles array).running =
      below mark (256 * tiles) := by
  induction tiles with
  | zero => exact (below_zero mark).symm
  | succ tiles ih =>
      rw [compactTiles_succ, Nat.mul_succ, below_base_add]
      have hTotal :=
        tileScan_eq mark (256 * tiles)
          (show 255 < 256 by omega)
      rw [← below_succ (fun t => mark (256 * tiles + t)) 255]
        at hTotal
      unfold tileStep
      dsimp only
      rw [ih, hTotal]

/-
  The array of one tile more: what it reads was written by the
  tiles before.
-/
theorem array_compactTiles_succ
    (mark : Nat → Nat)
    (load : (Nat → α) → Nat → α)
    (offset tiles : Nat)
    (array : Nat → α) :
    (compactTiles mark load offset (tiles + 1) array).array =
      scatterTile mark
        (fun tid =>
          load (compactTiles mark load offset tiles array).array
            (256 * tiles + tid))
        (256 * tiles) offset (below mark (256 * tiles))
        (compactTiles mark load offset tiles array).array := by
  rw [compactTiles_succ]
  unfold tileStep
  dsimp only
  rw [running_compactTiles]

/- Tiles of another array: the kept rows stand at the offset and
the rest of the output is untouched. -/
theorem compactTiles_spec
    {mark : Nat → Nat}
    (value array : Nat → α)
    (offset tiles : Nat)
    (hMark : ∀ i, mark i ≤ 1) :
    let written :=
      (compactTiles mark (fun _ => value) offset tiles array).array
    firstN (fun r => written (offset + r))
          (below mark (256 * tiles)) =
        kept mark value (256 * tiles) ∧
      ∀ j,
        j < offset ∨ offset + below mark (256 * tiles) ≤ j →
          written j = array j := by
  induction tiles with
  | zero => exact ⟨rfl, fun _ _ => rfl⟩
  | succ tiles ih =>
      intro written
      rcases ih with ⟨hFirst, hRest⟩
      rcases scatterTile_spec
          (fun tid => value (256 * tiles + tid))
          (compactTiles mark (fun _ => value) offset tiles
            array).array
          (256 * tiles) offset hMark with
        ⟨hTile, hOther⟩
      have hWritten :=
        array_compactTiles_succ mark (fun _ : Nat → α => value)
          offset tiles array
      rw [show written = _ from hWritten, Nat.mul_succ,
        below_base_add]
      constructor
      · rw [firstN_add, kept_add, ← hFirst, ← hTile]
        refine congrArg₂ (· ++ ·) ?_ ?_
        · apply firstN_congr
          intro r hLt
          exact hOther _ (Or.inl (by omega))
        · apply firstN_congr
          intro r _
          rw [Nat.add_assoc]
      · intro j hOutside
        rw [hOther j (by omega)]
        exact hRest j (by omega)

/- What is kept reads marked values only. -/
theorem kept_congr
    {mark : Nat → Nat}
    {value other : Nat → α}
    {n : Nat}
    (hEq : ∀ i < n, mark i ≠ 0 → value i = other i) :
    kept mark value n = kept mark other n := by
  unfold kept
  apply List.map_congr_left
  intro i hMem
  rcases List.mem_filter.mp hMem with ⟨hRange, hMark⟩
  exact hEq i (List.mem_range.mp hRange) (of_decide_eq_true hMark)

/- Tiles of the array itself: what is written never reaches a
tile that is still to be read. -/
theorem compactTiles_inPlace
    {mark : Nat → Nat}
    {load : (Nat → α) → Nat → α}
    (array : Nat → α)
    (tiles : Nat)
    (hMark : ∀ i, mark i ≤ 1)
    (hLoad : ∀ held i, mark i ≠ 0 → load held i = held i) :
    let written := (compactTiles mark load 0 tiles array).array
    firstN written (below mark (256 * tiles)) =
        kept mark array (256 * tiles) ∧
      ∀ j, 256 * tiles ≤ j → written j = array j := by
  induction tiles with
  | zero => exact ⟨rfl, fun _ _ => rfl⟩
  | succ tiles ih =>
      intro written
      rcases ih with ⟨hFirst, hRest⟩
      let held := (compactTiles mark load 0 tiles array).array
      rcases scatterTile_spec
          (fun tid => load held (256 * tiles + tid)) held
          (256 * tiles) 0 hMark with
        ⟨hTile, hOther⟩
      have hWritten :=
        array_compactTiles_succ mark load 0 tiles array
      have hLoaded :
          kept (fun tid => mark (256 * tiles + tid))
              (fun tid => load held (256 * tiles + tid)) 256 =
            kept (fun tid => mark (256 * tiles + tid))
              (fun tid => array (256 * tiles + tid)) 256 := by
        apply kept_congr
        intro tid _ hKeep
        rw [hLoad held _ hKeep]
        exact hRest _ (Nat.le_add_right _ _)
      have hBefore := below_le_self hMark (256 * tiles)
      have hInside :=
        below_le_self
          (fun tid => hMark (256 * tiles + tid)) 256
      rw [show written = _ from hWritten, Nat.mul_succ,
        below_base_add]
      constructor
      · rw [firstN_add, kept_add, ← hFirst, ← hLoaded, ← hTile]
        refine congrArg₂ (· ++ ·) ?_ ?_
        · apply firstN_congr
          intro r hLt
          exact hOther _ (Or.inl (by omega))
        · apply firstN_congr
          intro r _
          rw [Nat.zero_add]
      · intro j hGe
        rw [hOther j (by omega)]
        exact hRest j (by omega)

----------------
-- Counts And Offsets
----------------

/- What one of 256 threads adds up in its stride. -/
def stridedSum (mark : Nat → Nat) (tiles tid : Nat) : Nat :=
  below (fun tile => mark (256 * tile + tid)) tiles

/- The strided sums together count every place once. -/
theorem below_stridedSum (mark : Nat → Nat) (tiles : Nat) :
    below (stridedSum mark tiles) 256 =
      below mark (256 * tiles) := by
  induction tiles with
  | zero =>
      have hNone :
          ∀ tid < 256, stridedSum mark 0 tid = 0 :=
        fun tid _ => below_zero _
      rw [Nat.mul_zero, below_zero]
      exact
        sum_eq_zero fun tid hMem => hNone tid (mem_range.mp hMem)
  | succ tiles ih =>
      have hSplit :
          ∀ tid < 256,
            stridedSum mark (tiles + 1) tid =
              stridedSum mark tiles tid +
                mark (256 * tiles + tid) :=
        fun tid _ => below_succ _ _
      rw [below_congr hSplit, below_add, ih, Nat.mul_succ,
        below_base_add]

/- One count more: the next offset is the sum so far. -/
def prefixStep
    (count : Nat → Nat)
    (scan : BlockScan)
    (k : Nat) : BlockScan :=
  { running := scan.running + count k
    offsets :=
      Function.update scan.offsets (k + 1)
        (scan.running + count k) }

/- The running sums behind the counts, with a zero in front. -/
def prefixOffsets
    (count offset : Nat → Nat)
    (n : Nat) : BlockScan :=
  (List.range n).foldl (prefixStep count)
    { running := 0, offsets := Function.update offset 0 0 }

/- The offsets are the sums so far. -/
theorem prefixOffsets_spec
    (count offset : Nat → Nat)
    (n : Nat) :
    (prefixOffsets count offset n).running = below count n ∧
      ∀ k ≤ n,
        (prefixOffsets count offset n).offsets k =
          below count k := by
  induction n with
  | zero =>
      refine ⟨(below_zero count).symm, ?_⟩
      intro k hLe
      rw [Nat.le_zero.mp hLe, below_zero]
      exact Function.update_self 0 0 offset
  | succ n ih =>
      rcases ih with ⟨hRunning, hOffsets⟩
      have hSucc :
          prefixOffsets count offset (n + 1) =
            prefixStep count (prefixOffsets count offset n) n := by
        unfold prefixOffsets
        rw [List.range_succ, List.foldl_append]
        rfl
      rw [hSucc]
      unfold prefixStep
      dsimp only
      rw [hRunning, ← below_succ]
      refine ⟨rfl, ?_⟩
      intro k hLe
      by_cases hLast : k = n + 1
      · rw [hLast, Function.update_self]
      · rw [Function.update_of_ne hLast]
        exact hOffsets k (by omega)

/- Parts that stand behind one another are one list. -/
theorem firstN_segments
    (xs : Nat → List α)
    (array : Nat → α)
    (n : Nat)
    (hParts :
      ∀ k < n,
        firstN
            (fun j =>
              array (below (fun k => (xs k).length) k + j))
            (xs k).length =
          xs k) :
    firstN array (below (fun k => (xs k).length) n) =
      (List.range n).flatMap xs := by
  induction n with
  | zero => rfl
  | succ n ih =>
      rw [below_succ, firstN_add,
        ih fun k hLt => hParts k (by omega),
        hParts n (Nat.lt_succ_self n), List.range_succ,
        List.flatMap_append, List.flatMap_singleton]

----------------
-- One Cursor A Key
----------------

/- The next place of each key, and the array. -/
structure Cursors (α : Type u) where
  cursor : Nat → Nat
  array : Nat → α

/- A row goes to the next place of its key. -/
def place
    (key : α → Nat)
    (state : Cursors α)
    (row : α) : Cursors α :=
  { cursor :=
      Function.update state.cursor (key row)
        (state.cursor (key row) + 1)
    array :=
      Function.update state.array (state.cursor (key row)) row }

/- All rows, in their order. -/
def placeAll
    (key : α → Nat)
    (offset : Nat → Nat)
    (array : Nat → α)
    (rows : List α) : Cursors α :=
  rows.foldl (place key) { cursor := offset, array := array }

/- Every part holds the rows of its key, in order, as long as
the sizes leave room for them. -/
theorem placeAll_spec
    {key : α → Nat}
    {size offset : Nat → Nat}
    {rows : List α}
    {n : Nat}
    (array : Nat → α)
    (hOffset : ∀ k < n, offset k = below size k)
    (hKeys : ∀ row ∈ rows, key row < n)
    (hRoom :
      ∀ k, (rows.countP fun row => key row = k) ≤ size k) :
    ∀ k < n,
      (placeAll key offset array rows).cursor k =
          below size k + rows.countP (fun row => key row = k) ∧
        firstN
            (fun j =>
              (placeAll key offset array rows).array
                (below size k + j))
            (rows.countP fun row => key row = k) =
          rows.filter fun row => key row = k := by
  induction rows using List.reverseRecOn with
  | nil => exact fun k hLt => ⟨hOffset k hLt, rfl⟩
  | append_singleton rows row ih =>
      have hOld :
          ∀ k, (rows.countP fun row => key row = k) ≤ size k := by
        intro k
        have hLe := hRoom k
        rw [List.countP_append] at hLe
        omega
      have hLast :
          (rows.countP fun other => key other = key row) + 1 ≤
            size (key row) := by
        have hLe := hRoom (key row)
        rw [List.countP_append, List.countP_singleton,
          decide_eq_true rfl, if_pos rfl] at hLe
        exact hLe
      have hRow : key row < n :=
        hKeys row
          (List.mem_append_right _ (List.mem_singleton_self _))
      have hParts :=
        ih (fun other hMem =>
          hKeys other (List.mem_append_left _ hMem)) hOld
      have hSnoc :
          placeAll key offset array (rows ++ [row]) =
            place key (placeAll key offset array rows) row := by
        unfold placeAll
        rw [List.foldl_append]
        rfl
      have hHere := hParts (key row) hRow
      intro k hLt
      rcases hParts k hLt with ⟨hCursor, hPart⟩
      rw [hSnoc, List.countP_append, List.countP_singleton,
        List.filter_append]
      unfold place
      dsimp only
      rw [hHere.1]
      by_cases hKey : key row = k
      · subst hKey
        rw [decide_eq_true rfl, if_pos rfl, Function.update_self]
        refine ⟨rfl, ?_⟩
        rw [firstN_succ, Function.update_self,
          List.filter_singleton, decide_eq_true rfl, cond_true,
          ← hPart]
        congr 1
        apply firstN_congr
        intro j hJ
        exact Function.update_of_ne (by omega) _ _
      · rw [decide_eq_false hKey, if_neg Bool.false_ne_true,
          Function.update_of_ne (Ne.symm hKey), Nat.add_zero,
          List.filter_singleton, decide_eq_false hKey, cond_false,
          List.append_nil, ← hPart]
        refine ⟨hCursor, ?_⟩
        apply firstN_congr
        intro j hJ
        refine Function.update_of_ne ?_ _ _
        have hFit := hOld k
        rcases Nat.lt_or_gt_of_ne hKey with hLess | hMore
        · have hApart := below_add_le size hLess
          omega
        · have hApart := below_add_le size hMore
          omega

/- Cursors that start at the counts lay out the rows key after
key. -/
theorem firstN_placeAll
    {key : α → Nat}
    {offset : Nat → Nat}
    {rows : List α}
    {n : Nat}
    (array : Nat → α)
    (hOffset :
      ∀ k < n,
        offset k =
          below (fun k => rows.countP fun row => key row = k) k)
    (hKeys : ∀ row ∈ rows, key row < n) :
    firstN (placeAll key offset array rows).array
        (below (fun k => rows.countP fun row => key row = k) n) =
      (List.range n).flatMap fun k =>
        rows.filter fun row => key row = k := by
  have hLength :
      (fun k => rows.countP fun row => key row = k) =
        fun k => (rows.filter fun row => key row = k).length := by
    funext k
    exact List.countP_eq_length_filter
  have hParts :=
    placeAll_spec array hOffset hKeys fun k => le_rfl
  rw [hLength]
  apply firstN_segments
  intro k hLt
  have hPart := (hParts k hLt).2
  rw [hLength, List.countP_eq_length_filter] at hPart
  exact hPart

end KeySplit
