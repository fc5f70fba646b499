import BeamSearch.Solve.NeighborhoodLayers

/-
  The solved neighborhood is exact.

  The table that is built holds every listed hash in one slot,
  however often its buckets were doubled. If the hash tells the
  states in question apart, it contains exactly the states from
  which the target is a few moves away, and the packed moves of
  each of them are a shortest way to the target.

  Main declarations:
    * `packBuckets_placed`
    * `bucketSlots_lt`
    * `NeighborhoodOf`
    * `buildSolvedNeighborhoodHost_neighborhood`
    * `buildSolvedNeighborhoodHost_exact`
-/

namespace BeamSearch

open Distance Final Probing

namespace Solve

variable {puzzle : Puzzle} {zobrist : ZobristTable}
variable {hash : Hash128} {host : HostSolvedNeighborhood}
    {nodes : List SolvedNeighborhoodNode} {radius : Nat}

----------------
-- Buckets
----------------

theorem nextPowerOfTwo_pos (value : Nat) :
    0 < nextPowerOfTwo value := by
  rw [nextPowerOfTwo]
  split_ifs
  · exact Nat.one_pos
  · exact Nat.succ_pos _

/- The table that comes out has a bucket and a slot for all. -/
theorem packBuckets_placed
    {hashes : List Hash128}
    {fixed : Bool}
    {doublings bucketCount : Nat}
    {count : UInt32}
    {slots : Slots Hash128 UInt32}
    (hPositive : 0 < bucketCount)
    (hPack :
      packBuckets hashes fixed doublings bucketCount =
        .ok (count, slots)) :
    count ≠ 0 ∧
      placeAll (bucketScheme (count - 1)) emptySlots hashes =
        some slots := by
  induction doublings generalizing bucketCount with
  | zero => cases hPack
  | succ doublings ih =>
      rw [packBuckets] at hPack
      by_cases hRange : bucketCount > 2 ^ 32 - 1
      · rw [if_pos hRange] at hPack
        cases hPack
      rw [if_neg hRange] at hPack
      cases hPlace :
          hashes.foldlM
            (placeSolvedNeighborhoodEntry
              (UInt32.ofNat bucketCount))
            emptySlots with
      | some placed =>
          rw [hPlace] at hPack
          cases hPack
          refine ⟨fun hZero => ?_, hPlace⟩
          have hNat := congrArg UInt32.toNat hZero
          rw [UInt32.toNat_ofNat', Nat.mod_eq_of_lt (by omega)]
            at hNat
          exact absurd hNat hPositive.ne'
      | none =>
          rw [hPlace] at hPack
          dsimp only at hPack
          split_ifs at hPack
          exact ih (by omega) hPack

/- No probe leaves the table. -/
theorem bucketSlots_lt
    {count : UInt32}
    {slot : Nat}
    (hCount : count ≠ 0)
    (hMem : slot ∈ bucketSlots (count - 1) hash) :
    slot < count.toNat * solvedNeighborhoodBucketSize.toNat := by
  rcases List.mem_flatMap.mp hMem with ⟨key, -, hSlot⟩
  rcases List.mem_map.mp hSlot with ⟨i, hi, rfl⟩
  have hFour : i < 4 := List.mem_range.mp hi
  have hPositive : 0 < count.toNat := by
    refine Nat.pos_of_ne_zero fun hZero => hCount ?_
    exact UInt32.toNat_inj.mp hZero
  have hMask : (count - 1).toNat = count.toNat - 1 := by
    rw [UInt32.toNat_sub_of_le _ _ (by
      rw [UInt32.le_iff_toNat_le]
      exact hPositive)]
    rfl
  have hBucket :
      (key.toUInt32 &&& (count - 1)).toNat ≤ count.toNat - 1 := by
    rw [UInt32.toNat_and, hMask]
    exact Nat.and_le_right
  have hSize : solvedNeighborhoodBucketSize.toNat = 4 := rfl
  have hSmall : (UInt32.ofNat i).toNat = i := by
    rw [UInt32.toNat_ofNat']
    omega
  rw [UInt32.toNat_add, UInt32.toNat_mul, hSize, hSmall]
  omega

----------------
-- What Is Built
----------------

/- A neighborhood that holds the hashes of the listed nodes. -/
structure NeighborhoodOf
    (host : HostSolvedNeighborhood)
    (nodes : List SolvedNeighborhoodNode) : Prop where
  enabled : host.enabled = true
  mask : host.deviceTable.bucketMask = host.bucketCount - 1
  count : host.bucketCount ≠ 0
  slotCount : host.slotCount =
    host.bucketCount.toNat * solvedNeighborhoodBucketSize.toNat
  holds : Holds (bucketScheme (host.bucketCount - 1)) host.slots
    (hashesOf nodes)
  entries : host.suffixByHash =
    nodes.map SolvedNeighborhoodNode.entry

theorem NeighborhoodOf.contains_iff
    (hHost : NeighborhoodOf host nodes) :
    solvedNeighborhoodContains host.deviceTable hash = true ↔
      hash ∈ hashesOf nodes := by
  rw [solvedNeighborhoodContains, hHost.mask, Bool.and_eq_true]
  exact (and_iff_right hHost.enabled).trans
    hHost.holds.contains_iff

theorem NeighborhoodOf.slot_lt
    (hHost : NeighborhoodOf host nodes)
    {slot : Nat}
    (hUsed : host.slots.tags slot ≠ 0) :
    slot < host.slotCount := by
  rw [hHost.slotCount]
  exact bucketSlots_lt hHost.count
    (hHost.holds.occupied slot hUsed).2

/- The suffix of a listed hash is the one of its node. -/
theorem NeighborhoodOf.suffixFor
    (hHost : NeighborhoodOf host nodes)
    (hMem : hash ∈ hashesOf nodes) :
    ∃ node ∈ nodes, node.hash = hash ∧
      host.runtime.suffixFor hash = .ok node.suffix := by
  have hSome := lookup_entry_isSome.mpr hMem
  rcases Option.isSome_iff_exists.mp hSome with ⟨suffix, hLookup⟩
  rcases List.lookup_eq_some_iff.mp hLookup with
    ⟨before, after, hSplit, -⟩
  have hPair : (hash, suffix) ∈
      nodes.map SolvedNeighborhoodNode.entry := by
    rw [hSplit]
    exact List.mem_append_right _ List.mem_cons_self
  rcases List.mem_map.mp hPair with ⟨node, hNode, hEntry⟩
  cases hEntry
  refine ⟨node, hNode, rfl, ?_⟩
  have hEnabled : host.runtime.enabled ≠ false := by
    rw [HostSolvedNeighborhood.runtime, hHost.enabled]
    exact Bool.true_eq_false_eq_False
  rw [SolvedNeighborhood.suffixFor, if_neg hEnabled]
  have hSame : host.runtime.suffixByHash.lookup node.hash =
      some node.suffix := by
    rw [← hLookup, HostSolvedNeighborhood.runtime, hHost.entries]
  rw [hSame]

/- Building searches the layers and then packs their hashes. -/
theorem buildSolvedNeighborhoodHost_neighborhood
    {maxEntries : Nat}
    {fixedBucketCount : UInt32}
    (hRadius : 0 < radius)
    (hBuild :
      buildSolvedNeighborhoodHost puzzle zobrist radius maxEntries
          fixedBucketCount =
        .ok host) :
    ∃ layers,
      searchLayers puzzle zobrist maxEntries radius
            (startLayers puzzle.layout zobrist puzzle.target) =
          .ok layers ∧
        (layers.suffixByHash =
            layers.allNodes.map SolvedNeighborhoodNode.entry →
          (hashesOf layers.allNodes).Nodup →
            NeighborhoodOf host layers.allNodes) := by
  rw [buildSolvedNeighborhoodHost, if_neg hRadius.ne'] at hBuild
  by_cases hWide : radius > 12
  · rw [if_pos hWide] at hBuild
    cases hBuild
  rw [if_neg hWide] at hBuild
  rcases except_bind_eq_ok hBuild with ⟨layers, hSearch, hRest⟩
  refine ⟨layers, hSearch, fun hEntries hNodup => ?_⟩
  by_cases hPower : fixedBucketCount ≠ 0 ∧
      fixedBucketCount &&& (fixedBucketCount - 1) ≠ 0
  · rw [if_pos hPower] at hRest
    cases hRest
  rw [if_neg hPower] at hRest
  rcases except_bind_eq_ok hRest with ⟨packed, hPack, hLast⟩
  cases hLast
  have hPositive :
      0 < if fixedBucketCount = 0 then
          nextPowerOfTwo (max 1 layers.allNodes.length)
        else fixedBucketCount.toNat := by
    split_ifs with hZero
    · exact nextPowerOfTwo_pos _
    · refine Nat.pos_of_ne_zero fun hNat => hZero ?_
      exact UInt32.toNat_inj.mp hNat
  rcases packBuckets_placed hPositive hPack with ⟨hCount, hPlace⟩
  refine ⟨?_, if_neg hCount, hCount, rfl,
    placeAll_holds (fun _ => rfl) hNodup hPlace, hEntries⟩
  have hSlots :
      packed.1.toNat * solvedNeighborhoodBucketSize.toNat ≠ 0 := by
    refine Nat.mul_ne_zero (fun hNat => hCount ?_) (by decide)
    exact UInt32.toNat_inj.mp hNat
  rw [HostSolvedNeighborhood.enabled, Bool.and_eq_true,
    bne_iff_ne, bne_iff_ne]
  exact ⟨hRadius.ne', hSlots⟩

----------------
-- Exactness
----------------

/- Of a state near the target, the listed suffix is a shortest
way to it. -/
theorem suffixFor_shortest
    {layers : Layers}
    {s : State}
    (hHash :
      Set.InjOn (hashState puzzle.layout zobrist)
        (nearTarget puzzle radius))
    (hExact : Exact puzzle zobrist radius layers)
    (hHost : NeighborhoodOf host layers.allNodes)
    (hNear : s ∈ nearTarget puzzle radius) :
    ∃ suffix ms,
      host.runtime.suffixFor (hashState puzzle.layout zobrist s) =
          .ok suffix ∧
        Packs suffix ms ∧
          At (Moves puzzle) puzzle.target ms.length s ∧
            Path (Moves puzzle) s ms puzzle.target := by
  rcases hHost.suffixFor (hExact.listed s hNear.1 hNear.2) with
    ⟨node, hMem, hSame, hSuffix⟩
  rcases hExact.near node hMem with ⟨k, hk, hSpells, hAt⟩
  rcases hSpells.path with ⟨ms, hLength, hPacks, hPath⟩
  rw [hSpells.hashed] at hSame
  have hState : node.state = s :=
    hHash ⟨hSpells.clean, hAt.within.mono hk⟩ hNear hSame
  rw [hState] at hAt hPath
  exact ⟨node.suffix, ms, hSuffix, hPacks, hLength ▸ hAt, hPath⟩

/- What is built for a radius lists exactly its states. -/
theorem neighborhood_exact
    {maxEntries : Nat}
    {fixedBucketCount : UInt32}
    (hPermutes : puzzle.Permutes)
    (hCount : puzzle.moveCount ≤ 32)
    (hTarget : Clean puzzle.layout puzzle.target)
    (hRadius : 0 < radius)
    (hBuild :
      buildSolvedNeighborhoodHost puzzle zobrist radius maxEntries
          fixedBucketCount =
        .ok host)
    (hHash :
      Set.InjOn (hashState puzzle.layout zobrist)
        (nearTarget puzzle radius)) :
    ∃ layers, Exact puzzle zobrist radius layers ∧
      NeighborhoodOf host layers.allNodes := by
  rcases buildSolvedNeighborhoodHost_neighborhood hRadius hBuild
    with ⟨layers, hSearch, hOf⟩
  rcases searchLayers_exact hPermutes hCount hHash
    (Nat.zero_add radius) (startLayers_shaped hTarget)
    (startLayers_exact hTarget) hSearch with
    ⟨hEntries, hNodup, hExact⟩
  exact ⟨layers, hExact, hOf hEntries hNodup⟩

/- A listed hash belongs to a state of the neighborhood. -/
theorem Exact.near_of_listed
    {layers : Layers}
    (hExact : Exact puzzle zobrist radius layers)
    (hMem : hash ∈ hashesOf layers.allNodes) :
    ∃ s ∈ nearTarget puzzle radius,
      hash = hashState puzzle.layout zobrist s := by
  rcases mem_hashesOf.mp hMem with ⟨node, hNode, rfl⟩
  rcases hExact.near node hNode with ⟨k, hk, hSpells, hAt⟩
  exact
    ⟨node.state, ⟨hSpells.clean, hAt.within.mono hk⟩,
      hSpells.hashed⟩

theorem contains_iff_within
    {layers : Layers}
    {involved : Set State}
    {s : State}
    (hNear : nearTarget puzzle radius ⊆ involved)
    (hHash : Set.InjOn (hashState puzzle.layout zobrist) involved)
    (hExact : Exact puzzle zobrist radius layers)
    (hHost : NeighborhoodOf host layers.allNodes)
    (hIn : s ∈ involved)
    (hClean : Clean puzzle.layout s) :
    solvedNeighborhoodContains host.deviceTable
        (hashState puzzle.layout zobrist s) = true ↔
      Within (Moves puzzle) puzzle.target radius s := by
  rw [hHost.contains_iff]
  constructor
  · intro hMem
    rcases hExact.near_of_listed hMem with ⟨t, hT, hSame⟩
    rw [hHash hIn (hNear hT) hSame]
    exact hT.2
  · exact hExact.listed s hClean

/-
  The table contains a state in question exactly if the target is
  at most `radius` moves away; the suffix of such a state is as
  long as its distance and its moves lead to the target; and every
  such state has exactly one slot, all other slots being empty.
-/
theorem buildSolvedNeighborhoodHost_exact
    {radius maxEntries : Nat}
    {fixedBucketCount : UInt32}
    {host : HostSolvedNeighborhood}
    {involved : Set State}
    (hPermutes : puzzle.Permutes)
    (hCount : puzzle.moveCount ≤ 32)
    (hTarget : Clean puzzle.layout puzzle.target)
    (hRadius : 0 < radius)
    (hBuild :
      buildSolvedNeighborhoodHost puzzle zobrist radius maxEntries
          fixedBucketCount =
        .ok host)
    (hClean : ∀ s ∈ involved, Clean puzzle.layout s)
    (hNear : nearTarget puzzle radius ⊆ involved)
    (hHash : Set.InjOn (hashState puzzle.layout zobrist) involved) :
    (∀ s ∈ involved,
        solvedNeighborhoodContains host.deviceTable
            (hashState puzzle.layout zobrist s) = true ↔
          Within (Moves puzzle) puzzle.target radius s) ∧
      (∀ s ∈ involved,
        Within (Moves puzzle) puzzle.target radius s →
          ∃ suffix,
            host.runtime.suffixFor
                  (hashState puzzle.layout zobrist s) =
                .ok suffix ∧
              At (Moves puzzle) puzzle.target suffix.len.toNat s ∧
                (appendPackedSuffix [] suffix).length =
                    suffix.len.toNat ∧
                  (appendPackedSuffix [] suffix).foldlM
                      (applyMoveFlatHost puzzle) s =
                    .ok puzzle.target) ∧
        (∀ s ∈ involved,
          Within (Moves puzzle) puzzle.target radius s →
            ∃! slot, host.slots.tags slot ≠ 0 ∧
              host.slots.keys slot =
                hashState puzzle.layout zobrist s) ∧
          ∀ slot, host.slots.tags slot ≠ 0 →
            slot < host.slotCount ∧
              ∃ s ∈ involved,
                Within (Moves puzzle) puzzle.target radius s ∧
                  host.slots.keys slot =
                    hashState puzzle.layout zobrist s := by
  have hHashNear := hHash.mono hNear
  rcases neighborhood_exact hPermutes hCount hTarget hRadius hBuild
    hHashNear with ⟨layers, hExact, hHost⟩
  refine ⟨?_, ?_, ?_, ?_⟩
  · intro s hIn
    exact contains_iff_within hNear hHash hExact hHost hIn
      (hClean s hIn)
  · intro s hIn hWithin
    rcases suffixFor_shortest hHashNear hExact hHost
      ⟨hClean s hIn, hWithin⟩ with
      ⟨suffix, ms, hSuffix, hPacks, hAt, hPath⟩
    have hMoves := hPacks.append_packed []
    rw [List.nil_append] at hMoves
    refine ⟨suffix, hSuffix, ?_, ?_, ?_⟩
    · rw [hPacks.length]
      exact hAt
    · rw [hMoves, hPacks.length]
    · rw [hMoves]
      exact path_iff_foldlM.mp hPath
  · intro s hIn hWithin
    exact hHost.holds.existsUnique
      (hExact.listed s (hClean s hIn) hWithin)
  · intro slot hUsed
    refine ⟨hHost.slot_lt hUsed, ?_⟩
    rcases hExact.near_of_listed
      (hHost.holds.occupied slot hUsed).1 with ⟨s, hS, hSame⟩
    exact ⟨s, hNear hS, hS.2, hSame⟩

theorem flipLayout_room : 2 + 4 ≤ 6 := by
  decide

/- Two places and one move, which swaps them. -/
def flipPuzzle : Puzzle where
  layout := ⟨2, 6, flipLayout_room⟩
  moveCount := 1
  generators _ p := if p = 0 then 1 else if p = 1 then 0 else p
  initial p := if p = 0 then 1 else 0
  target p := if p = 1 then 1 else 0
  names := [['a']]

/- A hash that tells the first two places apart. -/
def flipZobrist : ZobristTable :=
  fun p v =>
    if p = 0 then ⟨v.toUInt64, 0⟩
    else if p = 1 then ⟨0, v.toUInt64⟩
    else ⟨0, 0⟩

theorem flipPuzzle_permutes : flipPuzzle.Permutes where
  bytes := by decide
  range := by
    intro move _ p hp
    have hLen : flipPuzzle.layout.storageLen = 6 := rfl
    rw [hLen] at hp ⊢
    simp only [flipPuzzle]
    split_ifs <;> omega
  injective := by
    intro move _ p _ q _ hSame
    simp only [flipPuzzle] at hSame
    split_ifs at hSame <;> omega
  logical := by
    intro move _ p hp
    have hLen : flipPuzzle.layout.stateLen = 2 := rfl
    rw [hLen] at hp ⊢
    simp only [flipPuzzle]
    split_ifs <;> omega

theorem hashState_flip (s : State) :
    hashState flipPuzzle.layout flipZobrist s =
      ⟨(s 0).toUInt64, (s 1).toUInt64⟩ := by
  have hRange : List.range flipPuzzle.layout.storageLen =
      [0, 1, 2, 3, 4, 5] := rfl
  rw [hashState, hRange]
  simp [flipZobrist, hashXor]

theorem hashState_flip_injOn :
    Set.InjOn (hashState flipPuzzle.layout flipZobrist)
      (fun s => Clean flipPuzzle.layout s) := by
  intro s hS t hT hSame
  rw [hashState_flip, hashState_flip, Hash128.mk.injEq,
    UInt8.toUInt64_inj, UInt8.toUInt64_inj] at hSame
  refine Clean.ext hS hT fun p hp => ?_
  have hLen : flipPuzzle.layout.stateLen = 2 := rfl
  rw [hLen] at hp
  rcases Nat.lt_succ_iff_lt_or_eq.mp hp with hZero | rfl
  · rw [Nat.lt_one_iff.mp hZero]
    exact hSame.1
  · exact hSame.2

theorem flipPuzzle_clean :
    Clean flipPuzzle.layout flipPuzzle.initial ∧
      Clean flipPuzzle.layout flipPuzzle.target := by
  have hLen : flipPuzzle.layout.stateLen = 2 := rfl
  constructor
  · intro p hp
    exact if_neg (by omega)
  · intro p hp
    exact if_neg (by omega)

theorem flipPuzzle_moves :
    Moves flipPuzzle flipPuzzle.initial 0 flipPuzzle.target := by
  refine moves_iff.mpr ⟨by decide, ?_⟩
  refine Clean.ext (clearStatePadding_clean fun p hp =>
    if_neg (by omega)) flipPuzzle_clean.2 fun p hp => ?_
  have hLen : flipPuzzle.layout.stateLen = 2 := rfl
  rw [hLen] at hp
  rcases Nat.lt_succ_iff_lt_or_eq.mp hp with hZero | rfl
  · rw [Nat.lt_one_iff.mp hZero]
    rfl
  · rfl

theorem buildSolvedNeighborhoodHost_exact_flip :
    ∃ host,
      buildSolvedNeighborhoodHost flipPuzzle flipZobrist 1 2 0 =
          .ok host ∧
        solvedNeighborhoodContains host.deviceTable
            (hashState flipPuzzle.layout flipZobrist
              flipPuzzle.initial) =
          true := by
  have hBuilt :
      (buildSolvedNeighborhoodHost flipPuzzle flipZobrist 1 2
          0).toOption.isSome = true := by
    decide +kernel
  cases hBuild :
      buildSolvedNeighborhoodHost flipPuzzle flipZobrist 1 2 0 with
  | error error =>
      rw [hBuild] at hBuilt
      cases hBuilt
  | ok host =>
      have hNear :
          Within (Moves flipPuzzle) flipPuzzle.target 1
            flipPuzzle.initial :=
        ⟨1, le_rfl, [0], rfl, flipPuzzle.target, flipPuzzle_moves,
          rfl⟩
      have hExact :=
        buildSolvedNeighborhoodHost_exact flipPuzzle_permutes
          (by decide) flipPuzzle_clean.2 Nat.one_pos hBuild
          (fun _ hIn => hIn) (fun _ hIn => hIn.1)
          hashState_flip_injOn
      exact
        ⟨host, rfl,
          (hExact.1 _ flipPuzzle_clean.1).mpr hNear⟩

end Solve

end BeamSearch
