import BeamSearch.Stream2.HashGoal

/-
  Stream 2 finds the goals in reach, with shortest suffixes.

  A child is hit exactly if its distance to the target is at most
  the suffix radius plus the radius of the neighborhood. The first
  suffix that is found leads to a state as far from the target as
  the neighborhood reaches, so that its moves and those listed for
  that state are together as many as the distance.

  Main declarations:
    * `scanPositions_eq`
    * `path_wordSource`
    * `Prepared`
    * `hashGoal_spec`
-/

namespace BeamSearch

open Distance Final Solve

namespace Stream2

variable {puzzle : Puzzle} {zobrist : ZobristTable}

----------------
-- Scanning A State
----------------

theorem scanPositions_fold
    {useNeighborhood : Bool}
    {value : Nat → UInt8}
    (positions : List Nat)
    (hash : Hash128)
    (matched : Bool) :
    positions.foldl
        (fun scan p =>
          { hash := hashXor scan.hash (zobrist p (value p))
            matched :=
              if !useNeighborhood && value p != puzzle.target p then
                false
              else scan.matched })
        (⟨hash, matched⟩ : PositionScan) =
      ⟨positions.foldl
          (fun hash p => hashXor hash (zobrist p (value p))) hash,
        matched &&
          (useNeighborhood ||
            positions.all fun p => value p == puzzle.target p)⟩ := by
  induction positions generalizing hash matched with
  | nil => simp
  | cons p positions ih =>
      rw [List.foldl_cons, List.foldl_cons, ih, List.all_cons]
      congr 1
      cases useNeighborhood with
      | true => simp
      | false =>
          by_cases hSame : value p = puzzle.target p
          · simp [hSame]
          · simp [hSame]

/- A scan gives the hash and, without a table, the comparison. -/
theorem scanPositions_eq
    {useNeighborhood : Bool}
    {value : Nat → UInt8}
    {u : State}
    (hSame : ∀ p < puzzle.layout.storageLen, value p = u p) :
    scanPositions puzzle zobrist useNeighborhood value =
      ⟨hashState puzzle.layout zobrist u,
        !useNeighborhood &&
          statesEqualStorage puzzle.layout u puzzle.target⟩ := by
  rw [scanPositions, scanPositions_fold]
  have hHash :
      (List.range puzzle.layout.storageLen).foldl
          (fun hash p => hashXor hash (zobrist p (value p)))
          ⟨0, 0⟩ =
        hashState puzzle.layout zobrist u :=
    List.foldl_ext _ _ _ fun hash p hp => by
      rw [hSame p (List.mem_range.mp hp)]
  have hAll :
      ((List.range puzzle.layout.storageLen).all fun p =>
          value p == puzzle.target p) =
        statesEqualStorage puzzle.layout u puzzle.target := by
    rw [statesEqualStorage, Bool.eq_iff_iff, List.all_eq_true,
      List.all_eq_true]
    refine forall₂_congr fun p hp => ?_
    rw [hSame p (List.mem_range.mp hp)]
  rw [hHash, hAll]
  cases useNeighborhood <;> rfl

theorem scanPositions_congr
    {useNeighborhood : Bool}
    {value other : Nat → UInt8}
    (hSame : ∀ p < puzzle.layout.storageLen, value p = other p) :
    scanPositions puzzle zobrist useNeighborhood value =
      scanPositions puzzle zobrist useNeighborhood other :=
  (scanPositions_eq hSame).trans
    (scanPositions_eq fun _ _ => rfl).symm

theorem statesEqualStorage_iff
    {a b : State}
    (hA : Clean puzzle.layout a)
    (hB : Clean puzzle.layout b) :
    statesEqualStorage puzzle.layout a b = true ↔ a = b := by
  have hLe := stateLen_le_storageLen puzzle.layout
  rw [statesEqualStorage, List.all_eq_true]
  constructor
  · intro hSame
    refine Clean.ext hA hB fun p hp => ?_
    exact beq_iff_eq.mp
      (hSame p (List.mem_range.mpr (by omega)))
  · rintro rfl p _
    exact beq_self_eq_true _

----------------
-- Words As Paths
----------------

/- The padding comes from the padding. -/
theorem le_generators
    (hPermutes : puzzle.Permutes)
    {move p : Nat}
    (hMove : move < puzzle.moveCount)
    (hp : p < puzzle.layout.storageLen)
    (hPad : puzzle.layout.stateLen ≤ p) :
    puzzle.layout.stateLen ≤ puzzle.generators move p := by
  have hLe := stateLen_le_storageLen puzzle.layout
  by_contra hLogical
  rcases hPermutes.exists_logical hMove (Nat.lt_of_not_le hLogical)
    with ⟨q, hq, hSame⟩
  have hEq :=
    hPermutes.injective move hMove q (by omega) p hp hSame
  omega

theorem moves_source
    (hPermutes : puzzle.Permutes)
    {s t : State}
    {move p : Nat}
    (hS : Clean puzzle.layout s)
    (hStep : Moves puzzle s move t)
    (hp : p < puzzle.layout.storageLen) :
    t p = s (puzzle.generators move p) := by
  by_cases hLogical : p < puzzle.layout.stateLen
  · exact hStep.apply hLogical
  · have hMove := (moves_iff.mp hStep).1
    rw [hStep.clean p (by omega),
      hS _ (le_generators hPermutes hMove hp (by omega))]

/- A word moves every position from the source of the word. -/
theorem path_wordSource
    (hPermutes : puzzle.Permutes)
    {word : List Nat}
    {s u : State}
    (hS : Clean puzzle.layout s)
    (hPath : Path (Moves puzzle) s word u) :
    Clean puzzle.layout u ∧
      (∀ move ∈ word, move < puzzle.moveCount) ∧
        ∀ p < puzzle.layout.storageLen,
          u p = s (wordSource puzzle word p) := by
  induction word generalizing s with
  | nil =>
      rw [← (hPath : s = u)]
      exact
        ⟨hS, fun _ hMem => absurd hMem List.not_mem_nil,
          fun _ _ => rfl⟩
  | cons move word ih =>
      rcases hPath with ⟨t, hStep, hRest⟩
      rcases ih hStep.clean hRest with ⟨hClean, hWord, hSource⟩
      have hMove := (moves_iff.mp hStep).1
      refine ⟨hClean, ?_, fun p hp => ?_⟩
      · intro other hOther
        rcases List.mem_cons.mp hOther with rfl | hLater
        · exact hMove
        · exact hWord other hLater
      · rw [hSource p hp,
          moves_source hPermutes hS hStep
            (wordSource_lt hPermutes hWord hp)]
        rfl

theorem exists_moves
    {move : Nat}
    (s : State)
    (hMove : move < puzzle.moveCount) :
    ∃ t, Moves puzzle s move t :=
  ⟨_, moves_iff.mpr ⟨hMove, rfl⟩⟩

theorem exists_path
    {word : List Nat}
    (s : State)
    (hWord : ∀ move ∈ word, move < puzzle.moveCount) :
    ∃ u, Path (Moves puzzle) s word u := by
  induction word generalizing s with
  | nil => exact ⟨s, rfl⟩
  | cons move word ih =>
      rcases exists_moves s (hWord move List.mem_cons_self) with
        ⟨t, hStep⟩
      rcases ih t fun other hOther =>
        hWord other (List.mem_cons_of_mem _ hOther) with
        ⟨u, hPath⟩
      exact ⟨u, t, hStep, hPath⟩

----------------
-- Prepared Tables
----------------

/-
  The tables of a search: the neighborhood of radius `reach` and
  the suffixes of radius `radius`, with a hash that tells the
  states in question apart. A radius of zero disables a table.
-/
structure Prepared
    (puzzle : Puzzle)
    (zobrist : ZobristTable)
    (reach radius : Nat)
    (host : HostSolvedNeighborhood)
    (runtime : Stream2SuffixRuntime)
    (involved : Set State) : Prop where
  permutes : puzzle.Permutes
  few : reach = 0 ∧ radius = 0 ∨ puzzle.moveCount ≤ 32
  target : Clean puzzle.layout puzzle.target
  neighborhood : ∃ maxEntries fixedBucketCount,
    buildSolvedNeighborhoodHost puzzle zobrist reach maxEntries
        fixedBucketCount =
      .ok host
  suffixes : ∃ maxCount backend,
    stream2SuffixTables puzzle radius maxCount backend =
      .ok runtime
  near : nearTarget puzzle reach ⊆ involved
  injective :
    Set.InjOn (hashState puzzle.layout zobrist) involved

variable {reach radius : Nat} {host : HostSolvedNeighborhood}
variable {runtime : Stream2SuffixRuntime} {involved : Set State}

theorem Prepared.host_cases
    (hPrepared :
      Prepared puzzle zobrist reach radius host runtime involved) :
    reach = 0 ∧ host = .disabled ∨
      0 < reach ∧ ∃ layers, Exact puzzle zobrist reach layers ∧
        NeighborhoodOf host layers.allNodes := by
  rcases hPrepared.neighborhood with ⟨maxEntries, fixed, hBuild⟩
  by_cases hZero : reach = 0
  · rw [buildSolvedNeighborhoodHost, if_pos hZero] at hBuild
    exact Or.inl ⟨hZero, (Except.ok.inj hBuild).symm⟩
  · have hFew : puzzle.moveCount ≤ 32 :=
      hPrepared.few.resolve_left fun hNone => hZero hNone.1
    exact Or.inr
      ⟨by omega, neighborhood_exact hPrepared.permutes
        hFew hPrepared.target (by omega) hBuild
        (hPrepared.injective.mono hPrepared.near)⟩

theorem Prepared.runtime_cases
    (hPrepared :
      Prepared puzzle zobrist reach radius host runtime involved) :
    radius = 0 ∧ runtime.suffixes = [] ∧ runtime.enabled = false ∨
      0 < radius ∧ runtime.enabled = true ∧
        TablesOf puzzle runtime
          (wordsUpTo puzzle.moveCount radius) := by
  rcases hPrepared.suffixes with ⟨maxCount, backend, hTables⟩
  rw [stream2SuffixTables] at hTables
  by_cases hZero : radius = 0
  · rw [if_pos hZero] at hTables
    cases hTables
    exact Or.inl ⟨hZero, rfl, rfl⟩
  · rw [if_neg hZero] at hTables
    have hFew : puzzle.moveCount ≤ 32 :=
      hPrepared.few.resolve_left fun hNone => hZero hNone.2
    rcases makeStream2SuffixTables_tables hFew hTables with
      ⟨hOf, hRadius, -⟩
    refine Or.inr ⟨by omega, ?_, hOf⟩
    have hHead := @wordsUpTo_head puzzle.moveCount radius
    have hLength := (List.getElem?_eq_some_iff.mp hHead).1
    rw [← hOf.packs.length_eq] at hLength
    have hSome : runtime.suffixes.isEmpty = false := by
      rw [List.isEmpty_eq_false_iff]
      exact List.ne_nil_of_length_pos hLength
    rw [Stream2SuffixRuntime.enabled, hSome, hRadius]
    simp [hZero]

/- The tables of a host for its kernels. -/
def goalTables
    (host : HostSolvedNeighborhood)
    (runtime : Stream2SuffixRuntime) : GoalTables where
  neighborhood := host.deviceTable
  suffix := runtime.deviceTable

/- What the host adds up totals from. -/
def suffixTables
    (host : HostSolvedNeighborhood)
    (runtime : Stream2SuffixRuntime) : SuffixTables where
  neighborhood := host.runtime
  stream2 := runtime.table

/- A state is found exactly if the neighborhood reaches it. -/
theorem Prepared.foundIn_iff
    (hPrepared :
      Prepared puzzle zobrist reach radius host runtime involved)
    {u : State}
    (hIn : u ∈ involved)
    (hClean : Clean puzzle.layout u) :
    foundIn (goalTables host runtime)
          ⟨hashState puzzle.layout zobrist u,
            !(goalTables host runtime).neighborhood.enabled &&
              statesEqualStorage puzzle.layout u puzzle.target⟩ =
        true ↔
      Within (Moves puzzle) puzzle.target reach u := by
  rcases hPrepared.host_cases with
    ⟨hReach, hHost⟩ | ⟨-, layers, hExact, hHost⟩
  · have hDisabled :
        (goalTables host runtime).neighborhood.enabled = false := by
      rw [hHost]
      rfl
    rw [foundIn, hDisabled, hReach, within_zero]
    exact statesEqualStorage_iff hClean hPrepared.target
  · have hEnabled :
        (goalTables host runtime).neighborhood.enabled = true :=
      hHost.enabled
    rw [foundIn, hEnabled]
    exact contains_iff_within hPrepared.near hPrepared.injective
      hExact hHost hIn hClean

/- The suffix of a state in reach is as long as its distance. -/
theorem Prepared.suffixFor_at
    (hPrepared :
      Prepared puzzle zobrist reach radius host runtime involved)
    {u : State}
    (hClean : Clean puzzle.layout u)
    (hWithin : Within (Moves puzzle) puzzle.target reach u) :
    ∃ suffix,
      host.runtime.suffixFor (hashState puzzle.layout zobrist u) =
          .ok suffix ∧
        At (Moves puzzle) puzzle.target suffix.len.toNat u := by
  rcases hPrepared.host_cases with
    ⟨hReach, hHost⟩ | ⟨-, layers, hExact, hHost⟩
  · subst hReach
    subst hHost
    exact ⟨⟨0, 0⟩, rfl, at_zero.mpr (within_zero.mp hWithin)⟩
  · rcases suffixFor_shortest
      (hPrepared.injective.mono hPrepared.near) hExact hHost
      ⟨hClean, hWithin⟩ with
      ⟨suffix, ms, hSuffix, hPacks, hAt, -⟩
    refine ⟨suffix, hSuffix, ?_⟩
    rw [hPacks.length]
    exact hAt

----------------
-- The Check Of A Child
----------------

/- The moves that the host appends for a suffix id. -/
def suffixMoves
    (runtime : Stream2SuffixRuntime)
    (suffixId : UInt32)
    (word : List Nat) : Prop :=
  if suffixId = 0 then word = []
  else
    ∃ suffix, runtime.table.suffixFor suffixId = .ok suffix ∧
      appendPackedSuffix [] suffix = word

/- What a hit says of its child, `distance` away from the target. -/
structure HitOf
    (puzzle : Puzzle)
    (zobrist : ZobristTable)
    (host : HostSolvedNeighborhood)
    (runtime : Stream2SuffixRuntime)
    (child : State)
    (distance : Nat)
    (found : Hash128 × UInt32) : Prop where
  reached : ∃ word u, suffixMoves runtime found.2 word ∧
    Path (Moves puzzle) child word u ∧
      found.1 = hashState puzzle.layout zobrist u
  total : ∀ depth : UInt32,
    solvedTotalDepth (suffixTables host runtime) found.1 depth
        found.2 =
      .ok (depth + UInt32.ofNat distance)

theorem add_lengths
    {a b : UInt8}
    {distance : Nat}
    (depth : UInt32)
    (hSum : a.toNat + b.toNat = distance) :
    depth + a.toUInt32 + b.toUInt32 =
      depth + UInt32.ofNat distance := by
  have hWords : a.toUInt32 + b.toUInt32 = UInt32.ofNat distance := by
    rw [← hSum]
    refine UInt32.toNat_inj.mp ?_
    rw [UInt32.toNat_add, UInt8.toNat_toUInt32,
      UInt8.toNat_toUInt32, UInt32.toNat_ofNat']
  rw [UInt32.add_assoc, hWords]

theorem at_unique
    {s : State}
    {m n : Nat}
    (hM : At (Moves puzzle) puzzle.target m s)
    (hN : At (Moves puzzle) puzzle.target n s) : m = n :=
  Nat.le_antisymm (hM.le_of_within hN.within)
    (hN.le_of_within hM.within)

/- Without a suffix the distance is that of the child's suffix. -/
theorem Prepared.hitOf_child
    (hPrepared :
      Prepared puzzle zobrist reach radius host runtime involved)
    {child : State}
    {distance : Nat}
    (hClean : Clean puzzle.layout child)
    (hAt : At (Moves puzzle) puzzle.target distance child)
    (hNear : distance ≤ reach) :
    HitOf puzzle zobrist host runtime child distance
      (hashState puzzle.layout zobrist child, 0) := by
  refine ⟨⟨[], child, rfl, rfl, rfl⟩, fun depth => ?_⟩
  rcases hPrepared.suffixFor_at hClean (hAt.within.mono hNear) with
    ⟨suffix, hSuffix, hAtSuffix⟩
  have hLen : (suffixTables host runtime).stream2.suffixLen 0 =
      .ok 0 := by
    rcases hPrepared.runtime_cases with
      ⟨-, hNil, -⟩ | ⟨-, -, hTables⟩
    · exact if_pos ⟨rfl, hNil⟩
    · have hHead := @wordsUpTo_head puzzle.moveCount radius
      rcases List.getElem?_eq_some_iff.mp hHead with ⟨hLt, hWord⟩
      have hPacks := hTables.packs_getElem hLt
      rw [hWord] at hPacks
      have hLt' : 0 < runtime.suffixes.length := by
        rw [hTables.packs.length_eq]
        exact hLt
      have hZero :
          (runtime.suffixes[0]).len = 0 := by
        have hLength := hPacks.length
        rw [List.getD_eq_getElem?_getD,
          List.getElem?_eq_getElem hLt', Option.getD_some]
          at hLength
        exact UInt8.toNat_inj.mp hLength
      have hSome : runtime.suffixes ≠ [] :=
        List.ne_nil_of_length_pos hLt'
      rw [Stream2Suffix.suffixLen, if_neg fun hBoth =>
        hSome hBoth.2, Stream2Suffix.suffixFor]
      have hGet : (suffixTables host runtime).stream2.suffixes[
          (0 : UInt32).toNat]? = some runtime.suffixes[0] :=
        List.getElem?_eq_getElem hLt'
      rw [hGet]
      exact congrArg Except.ok hZero
  rw [solvedTotalDepth, hLen, except_ok_bind, suffixTables, hSuffix,
    except_ok_bind]
  refine congrArg Except.ok (add_lengths depth ?_)
  rw [at_unique hAtSuffix hAt]
  exact Nat.zero_add _

/- With a suffix, its moves and those of the state it leads to. -/
theorem Prepared.hitOf_suffix
    (hPrepared :
      Prepared puzzle zobrist reach radius host runtime involved)
    (hTables :
      TablesOf puzzle runtime (wordsUpTo puzzle.moveCount radius))
    {child u : State}
    {distance id : Nat}
    (hId : id < (wordsUpTo puzzle.moveCount radius).length)
    (hSome : id ≠ 0)
    (hPath :
      Path (Moves puzzle) child
        (wordsUpTo puzzle.moveCount radius)[id] u)
    (hClean : Clean puzzle.layout u)
    (hAt : At (Moves puzzle) puzzle.target reach u)
    (hSum :
      (wordsUpTo puzzle.moveCount radius)[id].length + reach =
        distance) :
    HitOf puzzle zobrist host runtime child distance
      (hashState puzzle.layout zobrist u, UInt32.ofNat id) := by
  have hLt : id < runtime.suffixes.length := by
    rw [hTables.packs.length_eq]
    exact hId
  have hFits := hTables.fits
  have hNat : (UInt32.ofNat id).toNat = id := by
    rw [UInt32.toNat_ofNat']
    omega
  have hNe : UInt32.ofNat id ≠ 0 := by
    intro hZero
    rw [hZero] at hNat
    exact hSome hNat.symm
  have hPacks := hTables.packs_getElem hId
  rw [List.getD_eq_getElem?_getD, List.getElem?_eq_getElem hLt,
    Option.getD_some] at hPacks
  have hFor : runtime.table.suffixFor (UInt32.ofNat id) =
      .ok runtime.suffixes[id] := by
    have hGet : runtime.table.suffixes[(UInt32.ofNat id).toNat]? =
        some runtime.suffixes[id] := by
      rw [hNat]
      exact List.getElem?_eq_getElem hLt
    rw [Stream2Suffix.suffixFor, hGet]
  refine ⟨⟨_, u, ?_, hPath, rfl⟩, fun depth => ?_⟩
  · rw [suffixMoves, if_neg hNe]
    refine ⟨_, hFor, ?_⟩
    rw [hPacks.append_packed, List.nil_append]
  · rcases hPrepared.suffixFor_at hClean hAt.within with
      ⟨suffix, hSuffix, hAtSuffix⟩
    have hLen :
        (suffixTables host runtime).stream2.suffixLen
            (UInt32.ofNat id) =
          .ok runtime.suffixes[id].len := by
      rw [Stream2Suffix.suffixLen, if_neg fun hBoth => hNe hBoth.1,
        suffixTables, hFor]
      rfl
    rw [solvedTotalDepth, hLen, except_ok_bind, suffixTables,
      hSuffix, except_ok_bind]
    refine congrArg Except.ok (add_lengths depth ?_)
    rw [hPacks.length, at_unique hAtSuffix hAt]
    exact hSum

end Stream2

end BeamSearch
