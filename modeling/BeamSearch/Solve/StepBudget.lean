import BeamSearch.Solve.NeighborhoodExact

/-
  The step budget of a search.

  The planner splits the steps between the forward search and the
  neighborhood of the target, and checks that all move sequences
  of its radius fit the entry limit. The native search lists at
  most one state for every such sequence, so it stays below the
  limit and packs no more moves than the radius.

  Main declarations:
    * `searchBudget`
    * `worstCase`, `searchBudget_eq_ok`
    * `Sized`
    * `searchLayers_sized`
-/

namespace BeamSearch

open Final

namespace Solve

----------------
-- The Budget
----------------

/- How many steps each part of a search may make. -/
structure SearchBudget where
  requestedMaxSteps : UInt32
  nativeForwardDepthLimit : UInt32
  configuredTouchBfsRadius : UInt32
  effectiveTouchBfsRadius : UInt32
  touchBfsMaxEntries : UInt64
  touchBfsWorstCaseEntries : UInt64
deriving DecidableEq, Repr

/- A number that must be a 64-bit word. -/
def checkedU64
    (name : String)
    (value : Nat) : Except ContractError Nat :=
  if value < 2 ^ 64 then .ok value else .error (.overflow name)

/- One more layer: its frontier and the entries up to it. -/
def growBudget
    (moves : UInt32)
    (maxEntries : UInt64)
    (sums : Nat × Nat)
    (_ : Nat) : Except ContractError (Nat × Nat) := do
  let frontier ←
    checkedU64 "touch BFS frontier" (sums.1 * moves.toNat)
  let total ← checkedU64 "touch BFS entries" (sums.2 + frontier)
  requireCapacity "touch BFS entries" total maxEntries.toNat
  .ok (frontier, total)

/- At least one step is left to the forward search. -/
def effectiveRadius (maxSteps radius : UInt32) : UInt32 :=
  let previous := if maxSteps = 0 then 0 else maxSteps - 1
  if radius ≤ previous then radius else previous

/-
  The touch radius is cut to the steps, and the rest is
  searched forward.
-/
def searchBudget
    (maxSteps radius moves : UInt32)
    (maxEntries : UInt64) : Except ContractError SearchBudget :=
  if moves = 0 ∨ moves > 255 ∨ radius > 12 ∨ maxEntries = 0 then
    .error (.invalid "touch BFS configuration")
  else
    let effective := effectiveRadius maxSteps radius
    if effective > 0 ∧ moves > 32 then
      .error (.invalid "touch BFS suffix move packing")
    else do
      let sums ←
        (List.range effective.toNat).foldlM
          (growBudget moves maxEntries) (1, 1)
      .ok
        { requestedMaxSteps := maxSteps
          nativeForwardDepthLimit := maxSteps - effective
          configuredTouchBfsRadius := radius
          effectiveTouchBfsRadius := effective
          touchBfsMaxEntries := maxEntries
          touchBfsWorstCaseEntries := UInt64.ofNat sums.2 }

/- The number of move sequences up to a length. -/
def worstCase (moves : Nat) : Nat → Nat
  | 0 => 1
  | n + 1 => worstCase moves n + moves ^ (n + 1)

theorem worstCase_mono
    {moves m n : Nat}
    (hLe : m ≤ n) :
    worstCase moves m ≤ worstCase moves n := by
  induction n, hLe using Nat.le_induction with
  | base => exact le_rfl
  | succ n _ ih => exact ih.trans (Nat.le_add_right _ _)

theorem checkedU64_eq_ok
    {name : String}
    {value result : Nat}
    (hCheck : checkedU64 name value = .ok result) :
    result = value := by
  rw [checkedU64] at hCheck
  split_ifs at hCheck
  exact (Except.ok.inj hCheck).symm

theorem growBudget_eq_ok
    {moves : UInt32}
    {maxEntries : UInt64}
    {sums next : Nat × Nat}
    {n : Nat}
    (hGrow : growBudget moves maxEntries sums n = .ok next) :
    next = (sums.1 * moves.toNat, sums.2 + sums.1 * moves.toNat) ∧
      next.2 ≤ maxEntries.toNat := by
  rcases except_bind_eq_ok hGrow with ⟨frontier, hFrontier, hRest⟩
  rcases except_bind_eq_ok hRest with ⟨total, hTotal, hRest⟩
  rcases except_bind_eq_ok hRest with ⟨_, hCapacity, hLast⟩
  cases hLast
  have hFits := requireCapacity_eq_ok_iff.mp hCapacity
  rw [checkedU64_eq_ok hTotal, checkedU64_eq_ok hFrontier] at *
  exact ⟨rfl, hFits⟩

theorem growBudget_run
    {moves : UInt32}
    {maxEntries : UInt64}
    {rounds : Nat}
    {sums : Nat × Nat}
    (hSome : 1 ≤ maxEntries.toNat)
    (hRun :
      (List.range rounds).foldlM (growBudget moves maxEntries)
          (1, 1) =
        .ok sums) :
    sums = (moves.toNat ^ rounds, worstCase moves.toNat rounds) ∧
      sums.2 ≤ maxEntries.toNat := by
  induction rounds generalizing sums with
  | zero =>
      cases hRun
      exact ⟨rfl, hSome⟩
  | succ rounds ih =>
      rw [List.range_succ, List.foldlM_append] at hRun
      rcases except_bind_eq_ok hRun with ⟨before, hBefore, hRest⟩
      rw [List.foldlM_cons] at hRest
      rcases except_bind_eq_ok hRest with ⟨next, hNext, hLast⟩
      cases hLast
      rcases growBudget_eq_ok hNext with ⟨hSums, hFits⟩
      refine ⟨?_, hFits⟩
      rw [hSums, (ih hBefore).1, worstCase, pow_succ]

/- What a budget that is returned says. -/
structure Budgeted
    (maxSteps radius moves : UInt32)
    (maxEntries : UInt64)
    (budget : SearchBudget) : Prop where
  radius : budget.effectiveTouchBfsRadius.toNat ≤ 12
  split : budget.nativeForwardDepthLimit.toNat +
    budget.effectiveTouchBfsRadius.toNat = maxSteps.toNat
  forward : maxSteps ≠ 0 →
    0 < budget.nativeForwardDepthLimit.toNat
  packing : budget.effectiveTouchBfsRadius.toNat = 0 ∨
    moves.toNat ≤ 32
  entries :
    worstCase moves.toNat budget.effectiveTouchBfsRadius.toNat ≤
      maxEntries.toNat

theorem effectiveRadius_toNat (maxSteps radius : UInt32) :
    (effectiveRadius maxSteps radius).toNat =
      min radius.toNat (maxSteps.toNat - 1) := by
  have hPrevious :
      (if maxSteps = 0 then 0 else maxSteps - 1).toNat =
        maxSteps.toNat - 1 := by
    split_ifs with hZero
    · rw [hZero]
      rfl
    · have hPositive : 1 ≤ maxSteps := by
        rw [UInt32.le_iff_toNat_le]
        refine Nat.pos_of_ne_zero fun hNat => hZero ?_
        exact UInt32.toNat_inj.mp hNat
      rw [UInt32.toNat_sub_of_le _ _ hPositive]
      rfl
  rw [effectiveRadius, ← hPrevious]
  rw [apply_ite UInt32.toNat]
  simp only [UInt32.le_iff_toNat_le, min_def]

theorem searchBudget_eq_ok
    {maxSteps radius moves : UInt32}
    {maxEntries : UInt64}
    {budget : SearchBudget}
    (hBudget :
      searchBudget maxSteps radius moves maxEntries = .ok budget) :
    Budgeted maxSteps radius moves maxEntries budget := by
  have hEffective := effectiveRadius_toNat maxSteps radius
  rw [searchBudget] at hBudget
  by_cases hBad :
      moves = 0 ∨ moves > 255 ∨ radius > 12 ∨ maxEntries = 0
  · rw [if_pos hBad] at hBudget
    cases hBudget
  rw [if_neg hBad] at hBudget
  dsimp only at hBudget
  by_cases hPack : effectiveRadius maxSteps radius > 0 ∧ moves > 32
  · rw [if_pos hPack] at hBudget
    cases hBudget
  rw [if_neg hPack] at hBudget
  rcases except_bind_eq_ok hBudget with ⟨sums, hSums, hLast⟩
  cases hLast
  push Not at hBad
  have hRadius : radius.toNat ≤ 12 := by
    by_contra hWide
    refine hBad.2.2.1 ?_
    rw [gt_iff_lt, UInt32.lt_iff_toNat_lt]
    exact Nat.lt_of_not_le hWide
  have hSome : 1 ≤ maxEntries.toNat := by
    refine Nat.pos_of_ne_zero fun hNat => hBad.2.2.2 ?_
    exact UInt64.toNat_inj.mp hNat
  rcases growBudget_run hSome hSums with ⟨hTotal, hFits⟩
  have hLe : effectiveRadius maxSteps radius ≤ maxSteps := by
    rw [UInt32.le_iff_toNat_le, hEffective]
    omega
  have hLimit :
      (maxSteps - effectiveRadius maxSteps radius).toNat =
        maxSteps.toNat -
          (effectiveRadius maxSteps radius).toNat :=
    UInt32.toNat_sub_of_le _ _ hLe
  refine ⟨?_, ?_, fun hSteps => ?_, ?_, ?_⟩
  · dsimp only
    omega
  · dsimp only
    rw [hLimit]
    omega
  · have hPositive : 0 < maxSteps.toNat := by
      refine Nat.pos_of_ne_zero fun hNat => hSteps ?_
      exact UInt32.toNat_inj.mp hNat
    dsimp only
    rw [hLimit]
    omega
  · dsimp only
    by_cases hZero : (effectiveRadius maxSteps radius).toNat = 0
    · exact Or.inl hZero
    · refine Or.inr ?_
      have hPositive : effectiveRadius maxSteps radius > 0 := by
        rw [gt_iff_lt, UInt32.lt_iff_toNat_lt]
        exact Nat.pos_of_ne_zero hZero
      by_contra hMany
      refine hPack ⟨hPositive, ?_⟩
      rw [gt_iff_lt, UInt32.lt_iff_toNat_lt]
      exact Nat.lt_of_not_le hMany
  · rw [hTotal] at hFits
    exact hFits

----------------
-- The Size Of The Neighborhood
----------------

variable {puzzle : Puzzle} {maxEntries : Nat}
variable (zobrist : ZobristTable)

/- A search that lists at most `added` nodes for the next layer. -/
structure Counted
    (nodes : List SolvedNeighborhoodNode)
    (depth added : Nat)
    (search : LayerSearch) : Prop where
  entries : search.suffixByHash =
    (nodes ++ search.next).map SolvedNeighborhoodNode.entry
  nodup : (hashesOf (nodes ++ search.next)).Nodup
  short : ∀ node ∈ search.next,
    node.suffix.len.toNat ≤ depth + 1
  few : search.next.length ≤ added

theorem prependSuffixMove_of_lt
    {suffix : PackedSuffix}
    {moveCount move depth : Nat}
    (hMove : move < moveCount)
    (hShort : suffix.len.toNat ≤ depth)
    (hDepth : depth < 12) :
    ∃ next, prependSuffixMove moveCount suffix move = .ok next ∧
      next.len.toNat ≤ depth + 1 := by
  have hRoom : ¬ suffix.len ≥ 12 := by
    rw [ge_iff_le, UInt8.le_iff_toNat_le]
    simp only [UInt8.toNat_ofNat]
    omega
  rw [prependSuffixMove, if_neg (by omega), if_neg hRoom]
  refine ⟨_, rfl, ?_⟩
  dsimp only
  rw [UInt8.toNat_add, UInt8.toNat_one]
  omega

/- A visit succeeds while the limit leaves room for its node. -/
theorem visitPredecessor_counted
    {nodes : List SolvedNeighborhoodNode}
    {node : SolvedNeighborhoodNode}
    {depth added move : Nat}
    {search : LayerSearch}
    (hMove : move < puzzle.moveCount)
    (hShort : node.suffix.len.toNat ≤ depth)
    (hDepth : depth < 12)
    (hRoom : nodes.length + added < maxEntries)
    (hCounted : Counted nodes depth added search) :
    ∃ next,
      visitPredecessor puzzle zobrist maxEntries node search move =
          .ok next ∧
        Counted nodes depth (added + 1) next := by
  have hUndo :
      applyInverseMoveFlatHost puzzle node.state move = .ok _ :=
    inverse_iff.mpr ⟨hMove, rfl⟩
  rw [visitPredecessor, hUndo, except_ok_bind]
  dsimp only
  split_ifs with hListed hFull
  · exact
      ⟨search, rfl, hCounted.entries, hCounted.nodup,
        hCounted.short, hCounted.few.trans (Nat.le_succ added)⟩
  · have hLength := congrArg List.length hCounted.entries
    rw [List.length_map, List.length_append] at hLength
    have hFew := hCounted.few
    omega
  · rcases prependSuffixMove_of_lt hMove hShort hDepth with
      ⟨suffix, hAdd, hLen⟩
    rw [hAdd, except_ok_bind]
    refine ⟨_, rfl, ?_, ?_, ?_, ?_⟩
    · dsimp only
      rw [hCounted.entries, ← List.append_assoc]
      exact map_entry_snoc _ ⟨_, _, _⟩
    · dsimp only
      rw [← List.append_assoc, hashesOf_append]
      refine List.nodup_append.mpr
        ⟨hCounted.nodup, List.nodup_singleton _, ?_⟩
      rintro hash hOld other hLast rfl
      have hSame := List.mem_singleton.mp hLast
      dsimp only at hSame
      rw [hSame] at hOld
      rw [hCounted.entries, lookup_entry_isSome] at hListed
      exact hListed hOld
    · intro other hMem
      rcases List.mem_append.mp hMem with hOld | hLast
      · exact hCounted.short other hOld
      · rw [List.mem_singleton.mp hLast]
        exact hLen
    · have hFew := hCounted.few
      dsimp only
      rw [List.length_append, List.length_singleton]
      omega

theorem visits_counted
    {nodes : List SolvedNeighborhoodNode}
    {node : SolvedNeighborhoodNode}
    {depth added : Nat}
    {moves : List Nat}
    {search : LayerSearch}
    (hMoves : ∀ move ∈ moves, move < puzzle.moveCount)
    (hShort : node.suffix.len.toNat ≤ depth)
    (hDepth : depth < 12)
    (hRoom : nodes.length + added + moves.length ≤ maxEntries)
    (hCounted : Counted nodes depth added search) :
    ∃ next,
      moves.foldlM (visitPredecessor puzzle zobrist maxEntries node)
            search =
          .ok next ∧
        Counted nodes depth (added + moves.length) next := by
  induction moves generalizing added search with
  | nil => exact ⟨search, rfl, hCounted⟩
  | cons move moves ih =>
      rw [List.length_cons] at hRoom ⊢
      have hNow : nodes.length + added < maxEntries := by omega
      rcases visitPredecessor_counted zobrist
        (hMoves move List.mem_cons_self) hShort hDepth hNow
        hCounted with ⟨next, hVisit, hNext⟩
      rcases ih
        (fun other hOther =>
          hMoves other (List.mem_cons_of_mem _ hOther))
        (by omega) hNext with ⟨last, hRun, hLast⟩
      refine ⟨last, ?_, ?_⟩
      · rw [List.foldlM_cons, hVisit]
        exact hRun
      · rw [Nat.add_assoc, Nat.add_comm 1] at hLast
        exact hLast

theorem visitNodes_counted
    {nodes frontier : List SolvedNeighborhoodNode}
    {depth added : Nat}
    {search : LayerSearch}
    (hShort : ∀ node ∈ frontier, node.suffix.len.toNat ≤ depth)
    (hDepth : depth < 12)
    (hRoom :
      nodes.length + added + frontier.length * puzzle.moveCount ≤
        maxEntries)
    (hCounted : Counted nodes depth added search) :
    ∃ next,
      frontier.foldlM (visitNode puzzle zobrist maxEntries) search =
          .ok next ∧
        Counted nodes depth
          (added + frontier.length * puzzle.moveCount) next := by
  induction frontier generalizing added search with
  | nil =>
      refine ⟨search, rfl, ?_⟩
      rw [List.length_nil, Nat.zero_mul, Nat.add_zero]
      exact hCounted
  | cons node frontier ih =>
      rw [List.length_cons, Nat.succ_mul] at hRoom ⊢
      have hRange : (List.range puzzle.moveCount).length =
          puzzle.moveCount := List.length_range
      have hNow :
          nodes.length + added +
              (List.range puzzle.moveCount).length ≤
            maxEntries := by
        omega
      rcases visits_counted zobrist
        (fun move hMove => List.mem_range.mp hMove)
        (hShort node List.mem_cons_self) hDepth hNow hCounted
        with ⟨next, hVisit, hNext⟩
      rw [hRange] at hNext
      rcases ih
        (fun other hOther =>
          hShort other (List.mem_cons_of_mem _ hOther))
        (by omega) hNext with ⟨last, hRun, hLast⟩
      refine ⟨last, ?_, ?_⟩
      · rw [List.foldlM_cons, visitNode, hVisit]
        exact hRun
      · rw [Nat.add_assoc, Nat.add_comm puzzle.moveCount] at hLast
        exact hLast

/- No more nodes than move sequences, whatever the generators. -/
structure Sized
    (moveCount depth : Nat)
    (layers : Layers) : Prop where
  entries : layers.suffixByHash =
    layers.allNodes.map SolvedNeighborhoodNode.entry
  nodup : (hashesOf layers.allNodes).Nodup
  short : ∀ node ∈ layers.allNodes,
    node.suffix.len.toNat ≤ depth
  last : ∀ node ∈ layers.frontier,
    node.suffix.len.toNat ≤ depth
  frontier : layers.frontier.length ≤ moveCount ^ depth
  total : layers.allNodes.length ≤ worstCase moveCount depth

theorem startLayers_sized
    (puzzle : Puzzle) :
    Sized puzzle.moveCount 0
      (startLayers puzzle.layout zobrist puzzle.target) where
  entries := rfl
  nodup := List.nodup_singleton _
  short := by
    intro node hMem
    rw [List.mem_singleton.mp hMem]
    exact le_rfl
  last := by
    intro node hMem
    rw [List.mem_singleton.mp hMem]
    exact le_rfl
  frontier := le_rfl
  total := le_rfl

theorem expandFrontier_sized
    {depth : Nat}
    {layers : Layers}
    (hDepth : depth < 12)
    (hRoom : worstCase puzzle.moveCount (depth + 1) ≤ maxEntries)
    (hSized : Sized puzzle.moveCount depth layers) :
    ∃ next,
      expandFrontier puzzle zobrist maxEntries layers = .ok next ∧
        Sized puzzle.moveCount (depth + 1) next := by
  have hProduct :
      layers.frontier.length * puzzle.moveCount ≤
        puzzle.moveCount ^ (depth + 1) := by
    rw [pow_succ]
    exact Nat.mul_le_mul_right _ hSized.frontier
  have hTotal := hSized.total
  rw [worstCase] at hRoom
  have hStart :
      Counted layers.allNodes depth 0
        ⟨layers.suffixByHash, []⟩ := by
    refine ⟨?_, ?_, fun _ hMem => absurd hMem List.not_mem_nil,
      le_rfl⟩
    · dsimp only
      rw [List.append_nil]
      exact hSized.entries
    · dsimp only
      rw [List.append_nil]
      exact hSized.nodup
  have hNow :
      layers.allNodes.length + 0 +
          layers.frontier.length * puzzle.moveCount ≤
        maxEntries := by
    omega
  rcases visitNodes_counted zobrist hSized.last hDepth hNow hStart
    with ⟨search, hRun, hCounted⟩
  have hFew := hCounted.few
  refine ⟨_, by rw [expandFrontier, hRun, except_ok_bind], ?_⟩
  refine ⟨hCounted.entries, hCounted.nodup, ?_, hCounted.short,
    ?_, ?_⟩
  · intro node hMem
    rcases List.mem_append.mp hMem with hOld | hNew
    · exact (hSized.short node hOld).trans (Nat.le_succ _)
    · exact hCounted.short node hNew
  · dsimp only
    omega
  · dsimp only
    rw [List.length_append, worstCase]
    omega

/- Within the limit the search ends without an exception. -/
theorem searchLayers_sized
    {rounds depth : Nat}
    {layers : Layers}
    (hDepth : depth + rounds ≤ 12)
    (hRoom :
      worstCase puzzle.moveCount (depth + rounds) ≤ maxEntries)
    (hSized : Sized puzzle.moveCount depth layers) :
    ∃ last,
      searchLayers puzzle zobrist maxEntries rounds layers =
          .ok last ∧
        last.suffixByHash =
            last.allNodes.map SolvedNeighborhoodNode.entry ∧
          (hashesOf last.allNodes).Nodup ∧
            ∀ node ∈ last.allNodes,
              node.suffix.len.toNat ≤ depth + rounds := by
  induction rounds generalizing depth layers with
  | zero =>
      exact
        ⟨layers, rfl, hSized.entries, hSized.nodup, hSized.short⟩
  | succ rounds ih =>
      rw [searchLayers]
      split_ifs with hEmpty
      · exact
          ⟨layers, rfl, hSized.entries, hSized.nodup,
            fun node hMem => (hSized.short node hMem).trans
              (Nat.le_add_right _ _)⟩
      · have hNext :
            worstCase puzzle.moveCount (depth + 1) ≤ maxEntries :=
          (worstCase_mono (by omega)).trans hRoom
        rcases expandFrontier_sized zobrist (by omega) hNext hSized
          with ⟨next, hExpand, hSizedNext⟩
        rw [hExpand, except_ok_bind]
        have hSplit : depth + (rounds + 1) = depth + 1 + rounds := by
          omega
        rw [hSplit] at hRoom hDepth ⊢
        exact ih hDepth hRoom hSizedNext

end Solve

end BeamSearch
