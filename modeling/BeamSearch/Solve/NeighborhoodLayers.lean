import BeamSearch.Solve.UndoneMoves

/-
  The layers of a solved neighborhood.

  Whatever the hash is, every node carries moves that lead from
  its state to the target, as many as its layer says, and every
  hash is listed once. If the hash tells the states near the
  target apart, the layers are those of the distance.

  Main declarations:
    * `Spells`
    * `Shaped`, `expandFrontier_shaped`
    * `Exact`, `expandFrontier_exact`
    * `searchLayers_exact`
-/

namespace BeamSearch

open Distance Final

namespace Solve

variable {puzzle : Puzzle} {zobrist : ZobristTable}
variable {maxEntries : Nat}
variable {node : SolvedNeighborhoodNode} {search next : LayerSearch} {depth : Nat}
    {layers : Layers}

----------------
-- Nodes
----------------

/- The packed moves lead from the state to the target. -/
structure Spells
    (puzzle : Puzzle)
    (zobrist : ZobristTable)
    (n : Nat)
    (node : SolvedNeighborhoodNode) : Prop where
  clean : Clean puzzle.layout node.state
  hashed : node.hash = hashState puzzle.layout zobrist node.state
  path : ∃ ms : List Nat, ms.length = n ∧
    Packs node.suffix ms ∧
      Path (Moves puzzle) node.state ms puzzle.target

/- What the map has of a node. -/
def SolvedNeighborhoodNode.entry
    (node : SolvedNeighborhoodNode) :
    Hash128 × PackedSuffix :=
  (node.hash, node.suffix)

/- The hashes of the nodes. -/
def hashesOf (nodes : List SolvedNeighborhoodNode) : List Hash128 :=
  nodes.map fun node => node.hash

theorem lookup_entry_isSome
    {nodes : List SolvedNeighborhoodNode}
    {hash : Hash128} :
    ((nodes.map SolvedNeighborhoodNode.entry).lookup hash).isSome
        = true ↔
      hash ∈ hashesOf nodes := by
  induction nodes with
  | nil => simp [hashesOf]
  | cons node nodes ih =>
      rw [List.map_cons, List.lookup_cons]
      by_cases hSame : hash = node.hash
      · simp [SolvedNeighborhoodNode.entry, hashesOf, hSame]
      · have hEntry : (hash == node.entry.1) = false :=
          beq_false_of_ne hSame
        rw [hEntry]
        exact ih.trans
          ⟨List.mem_cons_of_mem _, fun hMem =>
            (List.mem_cons.mp hMem).resolve_left hSame⟩

theorem map_entry_snoc
    (nodes : List SolvedNeighborhoodNode)
    (node : SolvedNeighborhoodNode) :
    nodes.map SolvedNeighborhoodNode.entry ++
        [(node.hash, node.suffix)] =
      (nodes ++ [node]).map SolvedNeighborhoodNode.entry := by
  rw [List.map_append]
  rfl

theorem hashesOf_append
    (earlier later : List SolvedNeighborhoodNode) :
    hashesOf (earlier ++ later) =
      hashesOf earlier ++ hashesOf later :=
  List.map_append

----------------
-- Visiting A Predecessor
----------------

/- A visit finds a listed hash, or adds the node of a new one. -/
theorem visitPredecessor_eq_ok
    {move : Nat}
    (hVisit :
      visitPredecessor puzzle zobrist maxEntries node search move =
        .ok next) :
    ∃ predecessor,
      applyInverseMoveFlatHost puzzle node.state move =
          .ok predecessor ∧
        let hash := hashState puzzle.layout zobrist predecessor
        ((search.suffixByHash.lookup hash).isSome = true ∧
            next = search) ∨
          ((search.suffixByHash.lookup hash).isSome = false ∧
            ∃ suffix,
              prependSuffixMove puzzle.moveCount node.suffix
                    move = .ok suffix ∧
                next =
                  { suffixByHash :=
                      search.suffixByHash ++ [(hash, suffix)]
                    next :=
                      search.next ++
                        [⟨predecessor, hash, suffix⟩] }) := by
  rw [visitPredecessor] at hVisit
  rcases except_bind_eq_ok hVisit with
    ⟨predecessor, hUndo, hRest⟩
  refine ⟨predecessor, hUndo, ?_⟩
  dsimp only at hRest ⊢
  split_ifs at hRest with hListed hFull
  · exact Or.inl ⟨hListed, (Except.ok.inj hRest).symm⟩
  · rcases except_bind_eq_ok hRest with ⟨suffix, -, hLast⟩
    cases hLast
  · rcases except_bind_eq_ok hRest with ⟨suffix, hAdd, hLast⟩
    exact Or.inr
      ⟨Bool.eq_false_iff.mpr hListed, suffix, hAdd,
        (Except.ok.inj hLast).symm⟩

/- What a search adds to the layers it started from. -/
structure Grown
    (puzzle : Puzzle)
    (zobrist : ZobristTable)
    (depth : Nat)
    (layers : Layers)
    (search : LayerSearch) : Prop where
  entries : search.suffixByHash =
    (layers.allNodes ++ search.next).map
      SolvedNeighborhoodNode.entry
  nodup : (hashesOf (layers.allNodes ++ search.next)).Nodup
  spells : ∀ node ∈ search.next,
    Spells puzzle zobrist (depth + 1) node

/- A hash is listed when a node of some layer has it. -/
theorem Grown.listed_iff
    (hGrown : Grown puzzle zobrist depth layers search)
    {hash : Hash128} :
    (search.suffixByHash.lookup hash).isSome = true ↔
      hash ∈ hashesOf (layers.allNodes ++ search.next) := by
  rw [hGrown.entries, lookup_entry_isSome]

/- One visit keeps what is listed and lists the predecessor. -/
theorem visitPredecessor_grown
    {move : Nat}
    (hPermutes : puzzle.Permutes)
    (hCount : puzzle.moveCount ≤ 32)
    (hNode : Spells puzzle zobrist depth node)
    (hGrown : Grown puzzle zobrist depth layers search)
    (hVisit :
      visitPredecessor puzzle zobrist maxEntries node search move =
        .ok next) :
    Grown puzzle zobrist depth layers next ∧
      hashesOf search.next ⊆ hashesOf next.next ∧
        ∀ predecessor,
          applyInverseMoveFlatHost puzzle node.state move =
              .ok predecessor →
            hashState puzzle.layout zobrist predecessor ∈
              hashesOf (layers.allNodes ++ next.next) := by
  rcases visitPredecessor_eq_ok hVisit with
    ⟨predecessor, hUndo, ⟨hListed, rfl⟩ |
      ⟨hNew, suffix, hAdd, rfl⟩⟩
  · refine ⟨hGrown, List.Subset.refl _, fun other hOther => ?_⟩
    rw [hUndo] at hOther
    cases hOther
    exact hGrown.listed_iff.mp hListed
  · have hFresh :
        hashState puzzle.layout zobrist predecessor ∉
          hashesOf (layers.allNodes ++ search.next) := by
      rw [← hGrown.listed_iff, hNew]
      exact Bool.false_ne_true
    have hInverse :=
      (applyInverseMoveFlatHost_iff hPermutes hNode.clean).mp hUndo
    rcases hNode.path with ⟨ms, hLength, hPacks, hPath⟩
    refine ⟨⟨?_, ?_, ?_⟩, ?_, ?_⟩
    · dsimp only
      rw [hGrown.entries, ← List.append_assoc]
      exact map_entry_snoc _ ⟨_, _, _⟩
    · dsimp only
      rw [← List.append_assoc, hashesOf_append]
      refine List.nodup_append.mpr
        ⟨hGrown.nodup, List.nodup_singleton _, ?_⟩
      rintro hash hOld other hLast rfl
      have hSame := List.mem_singleton.mp hLast
      dsimp only at hSame
      rw [hSame] at hOld
      exact hFresh hOld
    · intro other hMem
      rcases List.mem_append.mp hMem with hOld | hLast
      · exact hGrown.spells other hOld
      · rw [List.mem_singleton.mp hLast]
        refine ⟨hInverse.1, rfl, move :: ms, ?_, ?_, ?_⟩
        · rw [List.length_cons, hLength]
        · exact hPacks.prepend hCount hAdd
        · exact ⟨node.state, hInverse.2, hPath⟩
    · dsimp only
      rw [hashesOf_append]
      exact List.subset_append_left _ _
    · intro other hOther
      rw [hUndo] at hOther
      cases hOther
      rw [← List.append_assoc, hashesOf_append]
      exact List.mem_append_right _ (List.mem_singleton_self _)

----------------
-- Expanding A Layer
----------------

/- The predecessors of these nodes by these moves are listed. -/
def Covers
    (puzzle : Puzzle)
    (zobrist : ZobristTable)
    (layers : Layers)
    (search : LayerSearch)
    (node : SolvedNeighborhoodNode)
    (move : Nat) : Prop :=
  ∀ predecessor,
    applyInverseMoveFlatHost puzzle node.state move =
        .ok predecessor →
      hashState puzzle.layout zobrist predecessor ∈
        hashesOf (layers.allNodes ++ search.next)

theorem Covers.mono
    {move : Nat}
    (hCovers : Covers puzzle zobrist layers search node move)
    (hSubset : hashesOf search.next ⊆ hashesOf next.next) :
    Covers puzzle zobrist layers next node move := by
  intro predecessor hUndo
  have hMem := hCovers predecessor hUndo
  rw [hashesOf_append, List.mem_append] at hMem ⊢
  exact hMem.imp id fun hNext => hSubset hNext

/- A visited node adds the children not listed yet. -/
theorem visitNode_grown
    (hPermutes : puzzle.Permutes)
    (hCount : puzzle.moveCount ≤ 32)
    (hNode : Spells puzzle zobrist depth node)
    (hGrown : Grown puzzle zobrist depth layers search)
    (hVisit :
      visitNode puzzle zobrist maxEntries search node = .ok next) :
    Grown puzzle zobrist depth layers next ∧
      hashesOf search.next ⊆ hashesOf next.next ∧
        ∀ move < puzzle.moveCount,
          Covers puzzle zobrist layers next node move := by
  let Seen (seen : List Nat) (found : LayerSearch) : Prop :=
    Grown puzzle zobrist depth layers found ∧
      hashesOf search.next ⊆ hashesOf found.next ∧
        ∀ move ∈ seen, Covers puzzle zobrist layers found node move
  have hAll : Seen ([] ++ List.range puzzle.moveCount) next := by
    refine foldlM_eq_ok (J := Seen) ?_
      ⟨hGrown, List.Subset.refl _,
        fun move hMem => absurd hMem List.not_mem_nil⟩ hVisit
    rintro seen found move later ⟨hFound, hOld, hSeen⟩ hStep
    rcases visitPredecessor_grown hPermutes hCount hNode hFound
      hStep with ⟨hLater, hMore, hCovers⟩
    refine ⟨hLater, fun _ hIn => hMore (hOld hIn), fun other hMem => ?_⟩
    rcases List.mem_append.mp hMem with hEarlier | hLast
    · exact (hSeen other hEarlier).mono hMore
    · rw [List.mem_singleton.mp hLast]
      exact hCovers
  exact
    ⟨hAll.1, hAll.2.1, fun move hMove =>
      hAll.2.2 move (List.mem_range.mpr hMove)⟩

/- Expanding the frontier covers all its children. -/
theorem expand_grown
    (hPermutes : puzzle.Permutes)
    (hCount : puzzle.moveCount ≤ 32)
    (hNodes : ∀ node ∈ layers.frontier,
      Spells puzzle zobrist depth node)
    (hStart :
      Grown puzzle zobrist depth layers ⟨layers.suffixByHash, []⟩)
    (hRun :
      layers.frontier.foldlM (visitNode puzzle zobrist maxEntries)
          ⟨layers.suffixByHash, []⟩ =
        .ok search) :
    Grown puzzle zobrist depth layers search ∧
      ∀ node ∈ layers.frontier, ∀ move < puzzle.moveCount,
        Covers puzzle zobrist layers search node move := by
  let Seen (seen : List SolvedNeighborhoodNode)
      (found : LayerSearch) : Prop :=
    (∀ node ∈ seen, Spells puzzle zobrist depth node) →
      Grown puzzle zobrist depth layers found ∧
        ∀ node ∈ seen, ∀ move < puzzle.moveCount,
          Covers puzzle zobrist layers found node move
  have hAll : Seen ([] ++ layers.frontier) search := by
    refine foldlM_eq_ok (J := Seen) ?_
      (fun _ => ⟨hStart,
        fun node hMem => absurd hMem List.not_mem_nil⟩) hRun
    intro seen found node later hFound hStep hSpells
    have hEarlier := hFound fun other hMem =>
      hSpells other (List.mem_append_left _ hMem)
    have hNode := hSpells node
      (List.mem_append_right _ (List.mem_singleton_self _))
    rcases visitNode_grown hPermutes hCount hNode hEarlier.1 hStep
      with ⟨hLater, hMore, hCovers⟩
    refine ⟨hLater, fun other hMem => ?_⟩
    rcases List.mem_append.mp hMem with hOld | hLast
    · exact fun move hMove =>
        (hEarlier.2 other hOld move hMove).mono hMore
    · rw [List.mem_singleton.mp hLast]
      exact hCovers
  exact hAll hNodes

----------------
-- Layers Of The Distance
----------------

/- What is known of every layer, whatever the hash is. -/
structure Shaped
    (puzzle : Puzzle)
    (zobrist : ZobristTable)
    (depth : Nat)
    (layers : Layers) : Prop where
  entries : layers.suffixByHash =
    layers.allNodes.map SolvedNeighborhoodNode.entry
  nodup : (hashesOf layers.allNodes).Nodup
  frontier : ∀ node ∈ layers.frontier,
    Spells puzzle zobrist depth node

/- Before the expansion nothing has grown. -/
theorem Shaped.grown
    (hShaped : Shaped puzzle zobrist depth layers) :
    Grown puzzle zobrist depth layers
      ⟨layers.suffixByHash, []⟩ where
  entries := by
    dsimp only
    rw [List.append_nil]
    exact hShaped.entries
  nodup := by
    dsimp only
    rw [List.append_nil]
    exact hShaped.nodup
  spells := fun _ hMem => absurd hMem List.not_mem_nil

/- After the expansion the layers have their shape again. -/
theorem Grown.shaped
    (hGrown : Grown puzzle zobrist depth layers search) :
    Shaped puzzle zobrist (depth + 1)
      { suffixByHash := search.suffixByHash
        frontier := search.next
        allNodes := layers.allNodes ++ search.next } where
  entries := hGrown.entries
  nodup := hGrown.nodup
  frontier := hGrown.spells

/- The target is the first layer. -/
theorem startLayers_shaped
    (hTarget : Clean puzzle.layout puzzle.target) :
    Shaped puzzle zobrist 0
      (startLayers puzzle.layout zobrist puzzle.target) where
  entries := rfl
  nodup := List.nodup_singleton _
  frontier := by
    intro node hMem
    rw [List.mem_singleton.mp hMem]
    exact ⟨hTarget, rfl, [], rfl, packs_nil, rfl⟩

/- The listed states are those near the target, each with as many
moves as its distance, and the frontier is the last layer. -/
structure Exact
    (puzzle : Puzzle)
    (zobrist : ZobristTable)
    (depth : Nat)
    (layers : Layers) : Prop where
  near : ∀ node ∈ layers.allNodes, ∃ k ≤ depth,
    Spells puzzle zobrist k node ∧
      At (Moves puzzle) puzzle.target k node.state
  listed : ∀ s, Clean puzzle.layout s →
    Within (Moves puzzle) puzzle.target depth s →
      hashState puzzle.layout zobrist s ∈
        hashesOf layers.allNodes
  last : ∀ s, Clean puzzle.layout s →
    At (Moves puzzle) puzzle.target depth s →
      ∃ node ∈ layers.frontier, node.state = s

theorem startLayers_exact
    (hTarget : Clean puzzle.layout puzzle.target) :
    Exact puzzle zobrist 0
      (startLayers puzzle.layout zobrist puzzle.target) where
  near := by
    intro node hMem
    have hShaped : Shaped puzzle zobrist 0 _ :=
      startLayers_shaped hTarget
    have hNode := hShaped.frontier node hMem
    refine ⟨0, le_rfl, hNode, at_zero.mpr ?_⟩
    rw [List.mem_singleton.mp hMem]
  listed := by
    intro s _ hNear
    rw [within_zero.mp hNear]
    exact List.mem_singleton_self _
  last := by
    intro s _ hAt
    exact ⟨_, List.mem_singleton_self _, (at_zero.mp hAt).symm⟩

theorem mem_hashesOf
    {nodes : List SolvedNeighborhoodNode}
    {hash : Hash128} :
    hash ∈ hashesOf nodes ↔
      ∃ node ∈ nodes, node.hash = hash :=
  List.mem_map

/- The clean states that reach the target in so many moves. -/
def nearTarget (puzzle : Puzzle) (radius : Nat) : Set State :=
  fun s => Clean puzzle.layout s ∧
    Within (Moves puzzle) puzzle.target radius s

theorem expandFrontier_eq_ok
    {next : Layers}
    (hExpand :
      expandFrontier puzzle zobrist maxEntries layers = .ok next) :
    ∃ search,
      layers.frontier.foldlM (visitNode puzzle zobrist maxEntries)
            ⟨layers.suffixByHash, []⟩ =
          .ok search ∧
        next =
          { suffixByHash := search.suffixByHash
            frontier := search.next
            allNodes := layers.allNodes ++ search.next } := by
  rcases except_bind_eq_ok hExpand with ⟨search, hRun, hLast⟩
  exact ⟨search, hRun, (Except.ok.inj hLast).symm⟩

/- An expansion keeps the shape of the layers. -/
theorem expandFrontier_shaped
    {next : Layers}
    (hPermutes : puzzle.Permutes)
    (hCount : puzzle.moveCount ≤ 32)
    (hShaped : Shaped puzzle zobrist depth layers)
    (hExpand :
      expandFrontier puzzle zobrist maxEntries layers = .ok next) :
    Shaped puzzle zobrist (depth + 1) next := by
  rcases expandFrontier_eq_ok hExpand with ⟨search, hRun, rfl⟩
  exact
    (expand_grown hPermutes hCount hShaped.frontier hShaped.grown
      hRun).1.shaped

/- The next layer holds the states one move further away. -/
theorem expandFrontier_exact
    {radius : Nat}
    {next : Layers}
    (hPermutes : puzzle.Permutes)
    (hCount : puzzle.moveCount ≤ 32)
    (hHash :
      Set.InjOn (hashState puzzle.layout zobrist)
        (nearTarget puzzle radius))
    (hDepth : depth < radius)
    (hShaped : Shaped puzzle zobrist depth layers)
    (hExact : Exact puzzle zobrist depth layers)
    (hExpand :
      expandFrontier puzzle zobrist maxEntries layers = .ok next) :
    Exact puzzle zobrist (depth + 1) next := by
  rcases expandFrontier_eq_ok hExpand with ⟨search, hRun, rfl⟩
  rcases expand_grown hPermutes hCount hShaped.frontier
    hShaped.grown hRun with ⟨hGrown, hCovers⟩
  have hNewAt : ∀ node ∈ search.next,
      At (Moves puzzle) puzzle.target (depth + 1) node.state := by
    intro node hMem
    have hSpells := hGrown.spells node hMem
    rcases hSpells.path with ⟨ms, hLength, -, hPath⟩
    refine At.of_within ⟨ms.length, by omega, ms, rfl, hPath⟩ ?_
    intro hNear
    have hOld := hExact.listed node.state hSpells.clean hNear
    rw [← hSpells.hashed] at hOld
    have hNodup := hGrown.nodup
    rw [hashesOf_append] at hNodup
    exact (List.nodup_append.mp hNodup).2.2 node.hash hOld
      node.hash (mem_hashesOf.mpr ⟨node, hMem, rfl⟩) rfl
  have hNear : ∀ node ∈ layers.allNodes ++ search.next,
      ∃ k ≤ depth + 1, Spells puzzle zobrist k node ∧
        At (Moves puzzle) puzzle.target k node.state := by
    intro node hMem
    rcases List.mem_append.mp hMem with hOld | hNew
    · rcases hExact.near node hOld with ⟨k, hk, hRest⟩
      exact ⟨k, by omega, hRest⟩
    · exact
        ⟨depth + 1, le_rfl, hGrown.spells node hNew,
          hNewAt node hNew⟩
  -- a listed hash of a state near the target is the state's node
  have hNode : ∀ s, Clean puzzle.layout s →
      Within (Moves puzzle) puzzle.target (depth + 1) s →
        hashState puzzle.layout zobrist s ∈
            hashesOf (layers.allNodes ++ search.next) →
          ∃ node ∈ layers.allNodes ++ search.next,
            node.state = s := by
    intro s hClean hWithin hListed
    rcases mem_hashesOf.mp hListed with ⟨node, hMem, hSame⟩
    rcases hNear node hMem with ⟨k, hk, hSpells, hAt⟩
    rw [hSpells.hashed] at hSame
    exact
      ⟨node, hMem, hHash
        ⟨hSpells.clean, hAt.within.mono (by omega)⟩
        ⟨hClean, hWithin.mono (by omega)⟩ hSame⟩
  have hReached : ∀ s, Clean puzzle.layout s →
      At (Moves puzzle) puzzle.target (depth + 1) s →
        hashState puzzle.layout zobrist s ∈
          hashesOf (layers.allNodes ++ search.next) := by
    intro s hClean hAt
    rcases (at_succ_iff.mp hAt).2 with ⟨move, t, hStep, hAtT⟩
    rcases hExact.last t hStep.clean hAtT with ⟨node, hMem, rfl⟩
    refine hCovers node hMem move (moves_iff.mp hStep).1 s ?_
    exact (applyInverseMoveFlatHost_iff hPermutes
      hStep.clean).mpr ⟨hClean, hStep⟩
  refine ⟨hNear, ?_, ?_⟩
  · intro s hClean hWithin
    by_cases hOld : Within (Moves puzzle) puzzle.target depth s
    · dsimp only
      rw [hashesOf_append]
      exact List.mem_append_left _ (hExact.listed s hClean hOld)
    · exact hReached s hClean (At.of_within hWithin hOld)
  · intro s hClean hAt
    rcases hNode s hClean hAt.within (hReached s hClean hAt) with
      ⟨node, hMem, rfl⟩
    rcases List.mem_append.mp hMem with hOld | hNew
    · rcases hExact.near node hOld with ⟨k, hk, -, hAtK⟩
      have hLe := hAt.le_of_within hAtK.within
      omega
    · exact ⟨node, hNew, rfl⟩

/- An empty layer is followed by empty ones. -/
theorem Exact.of_empty
    (hEmpty : layers.frontier = [])
    (hExact : Exact puzzle zobrist depth layers) :
    Exact puzzle zobrist (depth + 1) layers := by
  have hNone : ∀ s, Clean puzzle.layout s →
      ¬ At (Moves puzzle) puzzle.target (depth + 1) s := by
    intro s hClean hAt
    rcases (at_succ_iff.mp hAt).2 with ⟨move, t, hStep, hAtT⟩
    rcases hExact.last t hStep.clean hAtT with ⟨node, hMem, -⟩
    rw [hEmpty] at hMem
    exact absurd hMem List.not_mem_nil
  refine ⟨fun node hMem => ?_, fun s hClean hWithin => ?_,
    fun s hClean hAt => absurd hAt (hNone s hClean)⟩
  · rcases hExact.near node hMem with ⟨k, hk, hRest⟩
    exact ⟨k, by omega, hRest⟩
  · by_cases hOld : Within (Moves puzzle) puzzle.target depth s
    · exact hExact.listed s hClean hOld
    · exact absurd (At.of_within hWithin hOld) (hNone s hClean)

/-
  After all rounds each layer holds the states of its
  distance.
-/
theorem searchLayers_exact
    {radius rounds : Nat}
    {last : Layers}
    (hPermutes : puzzle.Permutes)
    (hCount : puzzle.moveCount ≤ 32)
    (hHash :
      Set.InjOn (hashState puzzle.layout zobrist)
        (nearTarget puzzle radius))
    (hRounds : depth + rounds = radius)
    (hShaped : Shaped puzzle zobrist depth layers)
    (hExact : Exact puzzle zobrist depth layers)
    (hRun :
      searchLayers puzzle zobrist maxEntries rounds layers =
        .ok last) :
    last.suffixByHash =
        last.allNodes.map SolvedNeighborhoodNode.entry ∧
      (hashesOf last.allNodes).Nodup ∧
        Exact puzzle zobrist radius last := by
  induction rounds generalizing depth layers with
  | zero =>
      cases hRun
      rw [← hRounds]
      exact ⟨hShaped.entries, hShaped.nodup, hExact⟩
  | succ rounds ih =>
      rw [searchLayers] at hRun
      split_ifs at hRun with hEmpty
      · cases hRun
        rw [List.isEmpty_iff] at hEmpty
        have hFinal : ∀ n, Exact puzzle zobrist (depth + n) last := by
          intro n
          induction n with
          | zero => exact hExact
          | succ n ihN => exact ihN.of_empty hEmpty
        rw [← hRounds]
        exact ⟨hShaped.entries, hShaped.nodup, hFinal _⟩
      · rcases except_bind_eq_ok hRun with ⟨next, hExpand, hRest⟩
        exact ih (by omega)
          (expandFrontier_shaped hPermutes hCount hShaped hExpand)
          (expandFrontier_exact hPermutes hCount hHash (by omega)
            hShaped hExact hExpand) hRest

end Solve

end BeamSearch
