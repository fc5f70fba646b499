import BeamSearch.Stream2.ShortestHits
import Mathlib.Data.List.Find

/-
  The kernels of stream 2 record every goal in reach.

  Every thread with a child in reach appends one record, in
  whatever order the threads come, and the totals of the records
  are the depths of the children plus their distances. Neither
  the backend nor the form of the kernel changes a record.

  Main declarations:
    * `Prepared.hashGoal_spec`
    * `hashGoal_backends`
    * `stream2HashGoalKernel_complete`
-/

namespace BeamSearch

open Distance Final Solve

namespace Stream2

variable {puzzle : Puzzle} {zobrist : ZobristTable}
variable {reach radius : Nat} {host : HostSolvedNeighborhood}
variable {runtime : Stream2SuffixRuntime} {involved : Set State}
variable {parent child : State} {move : Nat} {other : Stream2SuffixRuntime}

----------------
-- The Scan Of A Suffix
----------------

theorem scanSuffix_eq
    (hPermutes : puzzle.Permutes)
    {heads : List (List Nat)}
    {tables : GoalTables}
    {u : State}
    {id : Nat}
    (hTables : TablesOf puzzle runtime heads)
    (hSuffix : tables.suffix = runtime.deviceTable)
    (hClean : Clean puzzle.layout parent)
    (hStep : Moves puzzle parent move child)
    (hId : id < heads.length)
    (hPath : Path (Moves puzzle) child heads[id] u) :
    scanSuffix puzzle zobrist tables parent move id =
      ⟨hashState puzzle.layout zobrist u,
        !tables.neighborhood.enabled &&
          statesEqualStorage puzzle.layout u puzzle.target⟩ := by
  rcases path_wordSource hPermutes hStep.clean hPath with
    ⟨-, hWord, hSource⟩
  refine scanPositions_eq fun p hp => ?_
  rw [hSuffix,
    stream2SuffixSourceIndex_eq hPermutes hTables hId hWord hp,
    hSource p hp]
  exact (moves_source hPermutes hClean hStep
    (wordSource_lt hPermutes hWord hp)).symm

/- A suffix is found exactly if it leads into the neighborhood. -/
theorem Prepared.found_suffix
    (hPrepared :
      Prepared puzzle zobrist reach radius host runtime involved)
    (hTables :
      TablesOf puzzle runtime (wordsUpTo puzzle.moveCount radius))
    {u : State}
    {id : Nat}
    (hClean : Clean puzzle.layout parent)
    (hStep : Moves puzzle parent move child)
    (hInvolved : ∀ word u, word.length ≤ radius →
      Path (Moves puzzle) child word u → u ∈ involved)
    (hId : id < (wordsUpTo puzzle.moveCount radius).length)
    (hPath :
      Path (Moves puzzle) child
        (wordsUpTo puzzle.moveCount radius)[id] u) :
    foundIn (goalTables host runtime)
          (scanSuffix puzzle zobrist (goalTables host runtime)
            parent move id) =
        true ↔
      Within (Moves puzzle) puzzle.target reach u := by
  rw [scanSuffix_eq hPrepared.permutes hTables rfl hClean hStep hId
    hPath]
  have hLength := (mem_wordsUpTo.mp (List.getElem_mem hId)).1
  exact hPrepared.foundIn_iff (hInvolved _ u hLength hPath)
    (path_wordSource hPrepared.permutes hStep.clean hPath).1

----------------
-- The Check Of A Child
----------------

/- Two words at least: none, and the move that was just made. -/
theorem one_lt_length_wordsUpTo
    {moveCount : Nat}
    (hMove : move < moveCount)
    (hRadius : 0 < radius) :
    1 < (wordsUpTo moveCount radius).length := by
  have hNone : ([] : List Nat) ∈ wordsUpTo moveCount radius :=
    mem_wordsUpTo.mpr ⟨Nat.zero_le _, fun _ hMem =>
      absurd hMem List.not_mem_nil⟩
  have hOne : [move] ∈ wordsUpTo moveCount radius :=
    mem_wordsUpTo.mpr ⟨hRadius, fun other hMem => by
      rw [List.mem_singleton.mp hMem]
      exact hMove⟩
  by_contra hShort
  rcases List.getElem_of_mem hNone with ⟨i, hi, hFirst⟩
  rcases List.getElem_of_mem hOne with ⟨j, hj, hSecond⟩
  have hSame : i = j := by omega
  subst hSame
  rw [hFirst] at hSecond
  cases hSecond

/- An earlier word is not longer. -/
theorem length_le_of_le
    {moveCount i j : Nat}
    (hLe : i ≤ j)
    (hi : i < (wordsUpTo moveCount radius).length)
    (hj : j < (wordsUpTo moveCount radius).length) :
    ((wordsUpTo moveCount radius)[i]).length ≤
      ((wordsUpTo moveCount radius)[j]).length := by
  rcases Nat.lt_or_eq_of_le hLe with hLt | rfl
  · exact List.pairwise_iff_getElem.mp (wordsUpTo_sorted radius) i j
      hi hj hLt
  · exact le_rfl

/- A child out of the neighborhood, but in reach of the suffixes. -/
theorem exists_suffix_in_reach
    {moveCount distance : Nat}
    (hPermutes : puzzle.Permutes)
    (hCount : moveCount = puzzle.moveCount)
    (hClean : Clean puzzle.layout child)
    (hAt : At (Moves puzzle) puzzle.target distance child)
    (hFar : reach < distance)
    (hNear : distance ≤ radius + reach) :
    ∃ id u, ∃ hId : id < (wordsUpTo moveCount radius).length,
      id ≠ 0 ∧
        (wordsUpTo moveCount radius)[id].length =
            distance - reach ∧
          Path (Moves puzzle) child
              (wordsUpTo moveCount radius)[id] u ∧
            At (Moves puzzle) puzzle.target reach u := by
  have hSplit : At (Moves puzzle) puzzle.target
      (distance - reach + reach) child := by
    rw [Nat.sub_add_cancel hFar.le]
    exact hAt
  rcases exists_path_at hSplit with
    ⟨word, u, hLength, hPath, hAtU⟩
  have hWord := (path_wordSource hPermutes hClean hPath).2.1
  have hMem : word ∈ wordsUpTo moveCount radius := by
    rw [hCount]
    exact mem_wordsUpTo.mpr ⟨by omega, hWord⟩
  rcases List.getElem_of_mem hMem with ⟨id, hId, rfl⟩
  refine ⟨id, u, hId, ?_, hLength, hPath, hAtU⟩
  rintro rfl
  have hHead := (List.getElem?_eq_some_iff.mp
    (@wordsUpTo_head moveCount radius)).2
  rw [hHead, List.length_nil] at hLength
  omega

/- The first suffix that is found makes a shortest way. -/
theorem Prepared.findHit_spec
    (hPrepared :
      Prepared puzzle zobrist reach radius host runtime involved)
    (hClean : Clean puzzle.layout parent)
    (hStep : Moves puzzle parent move child)
    (hInvolved : ∀ word u, word.length ≤ radius →
      Path (Moves puzzle) child word u → u ∈ involved)
    (hFar : ¬ Within (Moves puzzle) puzzle.target reach child)
    (hEnabled : runtime.enabled = true)
    (hTables :
      TablesOf puzzle runtime (wordsUpTo puzzle.moveCount radius))
    (hRadius : 0 < radius) :
    let found := stream2SuffixFindHit puzzle zobrist
      (goalTables host runtime) parent move
    (found.isSome = true ↔
        Within (Moves puzzle) puzzle.target (radius + reach)
          child) ∧
      ∀ distance hit, found = some hit →
        At (Moves puzzle) puzzle.target distance child →
          HitOf puzzle zobrist host runtime child distance hit := by
  have hMove := (moves_iff.mp hStep).1
  have hLong := one_lt_length_wordsUpTo hMove hRadius
  have hLength := hTables.packs.length_eq
  have hFits := hTables.fits
  have hSuffixCount :
      (goalTables host runtime).suffix.suffixCount.toNat =
        (wordsUpTo puzzle.moveCount radius).length := by
    rw [← hLength]
    exact Nat.mod_eq_of_lt hFits
  have hGuard :
      ¬ ((goalTables host runtime).suffix.enabled = false ∨
        (goalTables host runtime).suffix.suffixCount ≤ 1) := by
    rintro (hOff | hFew)
    · exact absurd (hEnabled.symm.trans hOff) nofun
    · rw [UInt32.le_iff_toNat_le, hSuffixCount] at hFew
      simp only [UInt32.toNat_one] at hFew
      omega
  have hFound : ∀ id u
      (hId : id < (wordsUpTo puzzle.moveCount radius).length),
      Path (Moves puzzle) child
          (wordsUpTo puzzle.moveCount radius)[id] u →
        (foundIn (goalTables host runtime)
              (scanSuffix puzzle zobrist (goalTables host runtime)
                parent move id) =
            true ↔
          Within (Moves puzzle) puzzle.target reach u) :=
    fun id u hId hPath =>
      hPrepared.found_suffix hTables hClean hStep hInvolved hId
        hPath
  intro found
  have hUnfold : found = _ := if_neg hGuard
  rw [hSuffixCount] at hUnfold
  cases hFind :
      (List.range' 1
          ((wordsUpTo puzzle.moveCount radius).length - 1)).find?
        fun id => foundIn (goalTables host runtime)
          (scanSuffix puzzle zobrist (goalTables host runtime)
            parent move id) with
  | none =>
      rw [hFind, Option.map_none] at hUnfold
      rw [List.find?_range'_eq_none] at hFind
      refine ⟨?_, fun distance hit hHit => ?_⟩
      · rw [hUnfold]
        refine iff_of_false nofun fun hWithin => ?_
        rcases within_iff.mp hWithin with ⟨distance, hLe, hAt⟩
        have hBeyond : reach < distance := by
          by_contra hIn
          exact hFar (hAt.within.mono (by omega))
        rcases exists_suffix_in_reach hPrepared.permutes rfl
          hStep.clean hAt hBeyond hLe with
          ⟨id, u, hId, hSome, -, hPath, hAtU⟩
        have hMissed := hFind id (by omega) (by omega)
        rw [(hFound id u hId hPath).mpr hAtU.within] at hMissed
        cases hMissed
      · rw [hUnfold] at hHit
        cases hHit
  | some id =>
      rw [hFind, Option.map_some] at hUnfold
      rw [List.find?_range'_eq_some] at hFind
      rcases hFind with ⟨hHere, hRange, hFirst⟩
      rw [List.mem_range'_1] at hRange
      have hId : id < (wordsUpTo puzzle.moveCount radius).length := by
        omega
      have hWords := mem_wordsUpTo.mp (List.getElem_mem hId)
      rcases exists_path child hWords.2 with ⟨u, hPath⟩
      have hCleanU :=
        (path_wordSource hPrepared.permutes hStep.clean hPath).1
      have hWithinU := (hFound id u hId hPath).mp hHere
      have hWithin := within_of_path hPath hWithinU
      constructor
      · rw [hUnfold]
        exact iff_of_true rfl (hWithin.mono (by omega))
      · intro distance hit hHit hAt
        rw [hUnfold] at hHit
        cases hHit
        have hLe := hAt.le_of_within hWithin
        have hBeyond : reach < distance := by
          by_contra hIn
          exact hFar (hAt.within.mono (by omega))
        have hNear : distance ≤ radius + reach := by
          have hShort := hWords.1
          omega
        rcases exists_suffix_in_reach hPrepared.permutes rfl
          hStep.clean hAt hBeyond hNear with
          ⟨other, v, hOther, hSome, hShort, hPathV, hAtV⟩
        have hOrder : id ≤ other := by
          by_contra hLater
          have hMissed := hFirst other (by omega) (by omega)
          rw [(hFound other v hOther hPathV).mpr hAtV.within]
            at hMissed
          cases hMissed
        have hNotLonger := length_le_of_le hOrder hId hOther
        -- no shorter way to the target from where the suffix ends
        have hAtU : At (Moves puzzle) puzzle.target reach u := by
          rcases within_iff.mp hWithinU with ⟨k, hk, hAtK⟩
          have hWhole :=
            hAt.le_of_within (within_of_path hPath hAtK.within)
          have hSame : k = reach := by omega
          rw [← hSame]
          exact hAtK
        have hScan :
            (scanSuffix puzzle zobrist (goalTables host runtime)
              parent move id).hash =
              hashState puzzle.layout zobrist u := by
          rw [scanSuffix_eq hPrepared.permutes hTables rfl hClean
            hStep hId hPath]
        rw [hScan]
        exact hPrepared.hitOf_suffix hTables hId (by omega) hPath
          hCleanU hAtU (by omega)

theorem goalTables_suffix_enabled
    (host : HostSolvedNeighborhood)
    (runtime : Stream2SuffixRuntime) :
    (goalTables host runtime).suffix.enabled = runtime.enabled :=
  rfl

/- A child is hit exactly if it is in reach, with its distance. -/
theorem Prepared.hashGoal_spec
    (hPrepared :
      Prepared puzzle zobrist reach radius host runtime involved)
    (hClean : Clean puzzle.layout parent)
    (hStep : Moves puzzle parent move child)
    (hInvolved : ∀ word u, word.length ≤ radius →
      Path (Moves puzzle) child word u → u ∈ involved) :
    let check := hashGoal puzzle zobrist (goalTables host runtime)
      parent move
    (check.hit.isSome = true ↔
        Within (Moves puzzle) puzzle.target (radius + reach)
          child) ∧
      ∀ distance hit, check.hit = some hit →
        At (Moves puzzle) puzzle.target distance child →
          HitOf puzzle zobrist host runtime child distance hit := by
  have hScan :
      scanPositions puzzle zobrist
          (goalTables host runtime).neighborhood.enabled
          (fun p => parent (puzzle.generators move p)) =
        ⟨hashState puzzle.layout zobrist child,
          !(goalTables host runtime).neighborhood.enabled &&
            statesEqualStorage puzzle.layout child
              puzzle.target⟩ :=
    scanPositions_eq fun p hp =>
      (moves_source hPrepared.permutes hClean hStep hp).symm
  have hFound := hPrepared.foundIn_iff
    (hInvolved [] child (Nat.zero_le _) rfl) hStep.clean
  intro check
  by_cases hNear : Within (Moves puzzle) puzzle.target reach child
  · have hHit : check.hit =
        some (hashState puzzle.layout zobrist child, 0) := by
      dsimp only [check]
      rw [hashGoal, hScan, if_pos (hFound.mpr hNear)]
    refine ⟨?_, fun distance hit hSome hAt => ?_⟩
    · rw [hHit]
      exact iff_of_true rfl (hNear.mono (by omega))
    · rw [hHit] at hSome
      cases hSome
      exact hPrepared.hitOf_child hStep.clean hAt
        (hAt.le_of_within hNear)
  · have hNot := fun hIn => hNear (hFound.mp hIn)
    rcases hPrepared.runtime_cases with
      ⟨hZero, -, hDisabled⟩ | ⟨hRadius, hEnabled, hTables⟩
    · have hHit : check.hit = none := by
        dsimp only [check]
        rw [hashGoal, hScan, if_neg hNot,
          goalTables_suffix_enabled, hDisabled]
        rfl
      refine ⟨?_, fun distance hit hSome => ?_⟩
      · rw [hHit, hZero, Nat.zero_add]
        exact iff_of_false nofun hNear
      · rw [hHit] at hSome
        cases hSome
    · have hHit : check.hit =
          stream2SuffixFindHit puzzle zobrist
            (goalTables host runtime) parent move := by
        dsimp only [check]
        rw [hashGoal, hScan, if_neg hNot,
          goalTables_suffix_enabled, hEnabled]
        rfl
      rw [hHit]
      exact hPrepared.findHit_spec hClean hStep hInvolved hNear
        hEnabled hTables hRadius

----------------
-- Backends
----------------

theorem Packs.unique
    {a b : PackedSuffix}
    {word : List Nat}
    (hA : Packs a word)
    (hB : Packs b word) : a = b := by
  have hMoves : a.moves = b.moves :=
    UInt64.toNat_inj.mp (hA.digits.trans hB.digits.symm)
  have hLen : a.len = b.len :=
    UInt8.toNat_inj.mp (hA.length.trans hB.length.symm)
  cases a
  cases b
  exact congrArg₂ PackedSuffix.mk hMoves hLen

theorem TablesOf.suffixes_eq
    {heads : List (List Nat)}
    (hTables : TablesOf puzzle runtime heads)
    (hOther : TablesOf puzzle other heads) :
    runtime.suffixes = other.suffixes := by
  refine List.ext_getElem ?_ fun i hi hi' => ?_
  · rw [hTables.packs.length_eq, hOther.packs.length_eq]
  · have hHeads : i < heads.length := by
      rw [← hTables.packs.length_eq]
      exact hi
    exact Packs.unique
      ((List.forall₂_iff_get.mp hTables.packs).2 i hi hHeads)
      ((List.forall₂_iff_get.mp hOther.packs).2 i hi' hHeads)

/- Both tables give the same source of every position. -/
theorem scanSuffix_backends
    (hPermutes : puzzle.Permutes)
    {id : Nat}
    (hTables :
      TablesOf puzzle runtime (wordsUpTo puzzle.moveCount radius))
    (hOther :
      TablesOf puzzle other (wordsUpTo puzzle.moveCount radius))
    (hId : id < (wordsUpTo puzzle.moveCount radius).length)
    (parent : State) :
    scanSuffix puzzle zobrist (goalTables host other) parent move
        id =
      scanSuffix puzzle zobrist (goalTables host runtime) parent
        move id := by
  have hWord := (mem_wordsUpTo.mp (List.getElem_mem hId)).2
  refine scanPositions_congr fun p hp => ?_
  have hSame :
      stream2SuffixSourceIndex puzzle (goalTables host other).suffix
          id p =
        stream2SuffixSourceIndex puzzle
          (goalTables host runtime).suffix id p :=
    (stream2SuffixSourceIndex_eq hPermutes hOther hId hWord
        hp).trans
      (stream2SuffixSourceIndex_eq hPermutes hTables hId hWord
        hp).symm
  rw [hSame]

theorem findHit_backends
    (hPermutes : puzzle.Permutes)
    (hTables :
      TablesOf puzzle runtime (wordsUpTo puzzle.moveCount radius))
    (hOther :
      TablesOf puzzle other (wordsUpTo puzzle.moveCount radius))
    (hEnabled : runtime.enabled = other.enabled)
    (parent : State) :
    stream2SuffixFindHit puzzle zobrist (goalTables host other)
        parent move =
      stream2SuffixFindHit puzzle zobrist
        (goalTables host runtime) parent move := by
  have hCount : (goalTables host other).suffix.suffixCount =
      (goalTables host runtime).suffix.suffixCount := by
    change UInt32.ofNat _ = UInt32.ofNat _
    rw [hTables.suffixes_eq hOther]
  have hOn : (goalTables host other).suffix.enabled =
      (goalTables host runtime).suffix.enabled :=
    hEnabled.symm
  have hToNat :
      (goalTables host runtime).suffix.suffixCount.toNat =
        (wordsUpTo puzzle.moveCount radius).length := by
    rw [← hTables.packs.length_eq]
    exact Nat.mod_eq_of_lt hTables.fits
  rw [stream2SuffixFindHit, stream2SuffixFindHit, hCount, hOn]
  split_ifs with hGuard
  · rfl
  · have hMany :
        1 < (wordsUpTo puzzle.moveCount radius).length := by
      rw [← hToNat]
      exact UInt32.lt_iff_toNat_lt.mp
        (UInt32.not_le.mp fun hFew => hGuard (Or.inr hFew))
    rw [hToNat]
    have hSame : ∀ id ∈ List.range' 1
          ((wordsUpTo puzzle.moveCount radius).length - 1),
        scanSuffix puzzle zobrist (goalTables host other) parent
            move id =
          scanSuffix puzzle zobrist (goalTables host runtime)
            parent move id := by
      intro id hId
      rw [List.mem_range'_1] at hId
      exact scanSuffix_backends hPermutes hTables hOther (by omega)
        parent
    have hFind :
        ((List.range' 1
            ((wordsUpTo puzzle.moveCount radius).length - 1)).find?
              fun id => foundIn (goalTables host other)
                (scanSuffix puzzle zobrist (goalTables host other)
                  parent move id)) =
          (List.range' 1
            ((wordsUpTo puzzle.moveCount radius).length - 1)).find?
              fun id => foundIn (goalTables host runtime)
                (scanSuffix puzzle zobrist
                  (goalTables host runtime) parent move id) :=
      List.find?_congr fun id hId => by
        rw [hSame id hId]
        rfl
    rw [hFind]
    refine Option.map_congr fun id hId => ?_
    rw [hSame id (List.mem_of_find?_eq_some hId)]

/- The same check with either backend, whatever the parent. -/
theorem hashGoal_backends
    (hPrepared :
      Prepared puzzle zobrist reach radius host runtime involved)
    (hOther :
      Prepared puzzle zobrist reach radius host other involved)
    (parent : State) :
    hashGoal puzzle zobrist (goalTables host other) parent move =
      hashGoal puzzle zobrist (goalTables host runtime) parent
        move := by
  have hFind :
      runtime.enabled = other.enabled ∧
        (runtime.enabled = true →
          stream2SuffixFindHit puzzle zobrist
              (goalTables host other) parent move =
            stream2SuffixFindHit puzzle zobrist
              (goalTables host runtime) parent move) := by
    rcases hPrepared.runtime_cases with
      ⟨hZero, -, hOff⟩ | ⟨hRadius, hOn, hTables⟩
    · rcases hOther.runtime_cases with
        ⟨-, -, hOff'⟩ | ⟨hRadius, -, -⟩
      · exact
          ⟨hOff.trans hOff'.symm, fun hOn =>
            absurd (hOn.symm.trans hOff) nofun⟩
      · omega
    · rcases hOther.runtime_cases with
        ⟨hZero, -, -⟩ | ⟨-, hOn', hTables'⟩
      · omega
      · have hSame := hOn.trans hOn'.symm
        exact
          ⟨hSame, fun _ => findHit_backends hPrepared.permutes
            hTables hTables' hSame parent⟩
  rw [hashGoal, hashGoal, goalTables_suffix_enabled,
    goalTables_suffix_enabled, ← hFind.1]
  by_cases hOn : runtime.enabled = true
  · rw [hFind.2 hOn]
    rfl
  · simp only [if_neg hOn]
    rfl

----------------
-- The Kernels
----------------

theorem Launch.threadHit_eq
    (launch : Launch)
    {job candidate : Nat}
    (hLive : launch.Live job candidate) :
    launch.threadHit job candidate =
      (launch.check job candidate).hit.map
        (launch.makeHit job candidate) :=
  if_pos hLive

/- Threads past the children of the launch append nothing. -/
theorem filterMap_range_threads
    (launch : Launch)
    {job threads : Nat}
    (hThreads : launch.total ≤ threads) :
    (List.range threads).filterMap (launch.threadHit job) =
      (List.range launch.total).filterMap
        (launch.threadHit job) := by
  induction threads, hThreads using Nat.le_induction with
  | base => rfl
  | succ threads hLe ih =>
      have hNone : launch.threadHit job threads = none :=
        if_neg fun hLive => absurd hLive.1 (by omega)
      rw [List.range_succ, List.filterMap_append, ih,
        List.filterMap_cons, hNone, List.filterMap_nil,
        List.append_nil]

/- The launch with other tables. -/
def Launch.withTables
    (launch : Launch)
    (tables : GoalTables) : Launch :=
  { launch with tables := tables }

theorem Launch.threadHit_withTables
    (launch : Launch)
    {tables : GoalTables}
    {job candidate : Nat}
    (hCheck :
      (launch.withTables tables).check job candidate =
        launch.check job candidate) :
    (launch.withTables tables).threadHit job candidate =
      launch.threadHit job candidate := by
  change
    (if launch.Live job candidate then
        ((launch.withTables tables).check job candidate).hit.map
          (launch.makeHit job candidate)
      else none) =
      _
  rw [hCheck]
  rfl

/- The child a thread checks. -/
def Launch.Child
    (launch : Launch)
    (job candidate : Nat)
    (child : State) : Prop :=
  launch.Live job candidate ∧
    Moves launch.puzzle (launch.parent job candidate)
      (launch.move candidate) child

/-
  Every child of the launch is hit exactly if it is in reach; its
  hit names the state after the suffix, and its total is the depth
  plus the distance. In whatever order the threads come, the hits
  are appended one by one as far as the list goes, after which the
  overflow flag is raised. Both kernels append the same records,
  and so does a launch with the tables of another backend.
-/
theorem stream2HashGoalKernel_complete
    {launch : Launch}
    {ring ringSlot ringSlotCount job : UInt32}
    {threads : Nat}
    {order : List Nat}
    (memory : LaunchMemory)
    (hPrepared :
      Prepared launch.puzzle launch.zobrist reach radius host
        runtime involved)
    (hTables : launch.tables = goalTables host runtime)
    (hFrontier : ∀ i,
      Clean launch.puzzle.layout (launch.currentFrontierStates i))
    (hInvolved : ∀ candidate child word u,
      launch.Child job.toNat candidate child →
        word.length ≤ radius →
          Path (Moves launch.puzzle) child word u →
            u ∈ involved)
    (hJob : ring * ringSlotCount + ringSlot = job)
    (hOrder : order.Perm (List.range threads))
    (hThreads : launch.total ≤ threads) :
    (∀ candidate child,
        launch.Child job.toNat candidate child →
          ((launch.threadHit job.toNat candidate).isSome = true ↔
              Within (Moves launch.puzzle) launch.puzzle.target
                (radius + reach) child) ∧
            ∀ distance hit,
              launch.threadHit job.toNat candidate = some hit →
                At (Moves launch.puzzle) launch.puzzle.target
                    distance child →
                  HitOf launch.puzzle launch.zobrist host runtime
                      child distance
                      (hit.candidate.hash, hit.suffix) ∧
                    hit.totalDepth (suffixTables host runtime) =
                      .ok
                        (launch.solvedDepth +
                          UInt32.ofNat distance)) ∧
      (∃ hits : List SolvedHit,
        hits.Perm
            ((List.range launch.total).filterMap
              (launch.threadHit job.toNat)) ∧
          Appended launch.capacity hits memory.solved
            (stream2HashGoalGraphJobKernel launch job order
              memory).solved ∧
          Appended launch.capacity hits memory.solved
            (stream2HashGoalKernel launch ring ringSlot
              ringSlotCount order memory).solved) ∧
        ∀ other,
          Prepared launch.puzzle launch.zobrist reach radius host
              other involved →
            ∀ candidate,
              (launch.withTables (goalTables host other)).threadHit
                  job.toNat candidate =
                launch.threadHit job.toNat candidate := by
  refine ⟨?_, ?_, ?_⟩
  · rintro candidate child ⟨hLive, hStep⟩
    have hSpec := hPrepared.hashGoal_spec (hFrontier _) hStep
      fun word u => hInvolved candidate child word u ⟨hLive, hStep⟩
    rw [← hTables] at hSpec
    rw [launch.threadHit_eq hLive]
    refine ⟨?_, fun distance hit hHit hAt => ?_⟩
    · rw [Option.isSome_map]
      exact hSpec.1
    · rcases Option.map_eq_some_iff.mp hHit with
        ⟨found, hFound, rfl⟩
      have hHitOf := hSpec.2 distance found hFound hAt
      exact ⟨hHitOf, hHitOf.total launch.solvedDepth⟩
  · refine
      ⟨order.filterMap (launch.threadHit job.toNat), ?_,
        threads_appended _ _ _ _ _, ?_⟩
    · rw [← filterMap_range_threads launch hThreads]
      exact hOrder.filterMap _
    · rw [← hJob]
      exact threads_appended _ _ _ _ _
  · intro other hOther candidate
    have hSame :
        hashGoal launch.puzzle launch.zobrist
            (goalTables host other)
            (launch.parent job.toNat candidate)
            (launch.move candidate) =
          launch.check job.toNat candidate := by
      rw [Launch.check, hTables]
      exact hashGoal_backends hPrepared hOther _
    exact launch.threadHit_withTables hSame

/- One parent, one swap away from the target. -/
def flipLaunch
    (host : HostSolvedNeighborhood)
    (runtime : Stream2SuffixRuntime)
    (capacity : Nat) : Launch where
  puzzle := flipPuzzle
  zobrist := flipZobrist
  tables := goalTables host runtime
  currentFrontierStates := fun _ => flipPuzzle.initial
  parentBase := fun _ => 0
  count := fun _ => 1
  bMicro := 1
  depth := 1
  currentDepth := none
  localRank := 0
  capacity := capacity
  stopOnFound := true

/- Memory before any launch. -/
def emptyLaunchMemory : LaunchMemory where
  hashRing := fun _ => ⟨0, 0⟩
  solved := ⟨0, fun _ => ⟨⟨⟨0, 0⟩, 0, 0, 0⟩, 0, 0⟩, false, false,
    false⟩

theorem flip_prepared
    {reach radius : Nat}
    {host : HostSolvedNeighborhood}
    {runtime : Stream2SuffixRuntime}
    (hHost :
      buildSolvedNeighborhoodHost flipPuzzle flipZobrist reach 0 0 =
        .ok host)
    (hRuntime :
      stream2SuffixTables flipPuzzle radius 0
          .composedPermutations =
        .ok runtime) :
    Prepared flipPuzzle flipZobrist reach radius host runtime
      fun s => Clean flipPuzzle.layout s where
  permutes := flipPuzzle_permutes
  few := Or.inr (by decide)
  target := flipPuzzle_clean.2
  neighborhood := ⟨0, 0, hHost⟩
  suffixes := ⟨0, _, hRuntime⟩
  near := fun _ hIn => hIn.1
  injective := hashState_flip_injOn

theorem flipLaunch_total
    (host : HostSolvedNeighborhood)
    (runtime : Stream2SuffixRuntime)
    (capacity : Nat) :
    (flipLaunch host runtime capacity).total = 1 :=
  rfl

theorem flipLaunch_child
    (host : HostSolvedNeighborhood)
    (runtime : Stream2SuffixRuntime)
    (capacity : Nat) :
    (flipLaunch host runtime capacity).Child 0 0
      flipPuzzle.target := by
  refine ⟨⟨?_, ?_⟩, flipPuzzle_moves⟩
  · rw [flipLaunch_total]
    exact Nat.one_pos
  · rw [Launch.parentLocal, Nat.zero_div]
    exact (by decide : 0 < (1 : UInt32).toNat)

theorem stream2HashGoalKernel_complete_flip :
    ∃ host runtime,
      buildSolvedNeighborhoodHost flipPuzzle flipZobrist 1 0 0 =
          .ok host ∧
        stream2SuffixTables flipPuzzle 1 0 .composedPermutations =
            .ok runtime ∧
          ((flipLaunch host runtime 4).threadHit 0 0).isSome =
            true := by
  have hBuilt :
      (buildSolvedNeighborhoodHost flipPuzzle flipZobrist 1 0
          0).toOption.isSome = true := by
    decide +kernel
  have hMade :
      (stream2SuffixTables flipPuzzle 1 0
          .composedPermutations).toOption.isSome = true := by
    decide
  cases hHost :
      buildSolvedNeighborhoodHost flipPuzzle flipZobrist 1 0 0 with
  | error error =>
      rw [hHost] at hBuilt
      cases hBuilt
  | ok host =>
      cases hRuntime :
          stream2SuffixTables flipPuzzle 1 0
            .composedPermutations with
      | error error =>
          rw [hRuntime] at hMade
          cases hMade
      | ok runtime =>
          have hComplete :=
            @stream2HashGoalKernel_complete 1 1 host runtime _
              (flipLaunch host runtime 4) 0 0 1 0 128
              (List.range 128) emptyLaunchMemory
              (flip_prepared hHost hRuntime) rfl
              (fun _ => flipPuzzle_clean.1)
              (fun _ _ _ _ hChild _ hPath =>
                (path_wordSource flipPuzzle_permutes
                  hChild.2.clean hPath).1)
              rfl (List.Perm.refl _) (by
                rw [flipLaunch_total]
                decide)
          refine ⟨host, runtime, rfl, rfl, ?_⟩
          exact (hComplete.1 0 _ (flipLaunch_child host runtime
            4)).1.mpr ⟨0, Nat.zero_le _, [], rfl, rfl⟩

/- A list without room: the child is the target, and no record of
it is stored. -/
theorem stream2HashGoalKernel_unrecorded :
    ∃ host runtime,
      buildSolvedNeighborhoodHost flipPuzzle flipZobrist 0 0 0 =
          .ok host ∧
        stream2SuffixTables flipPuzzle 0 0 .composedPermutations =
            .ok runtime ∧
          (flipLaunch host runtime 0).Child 0 0
              flipPuzzle.target ∧
            At (Moves flipPuzzle) flipPuzzle.target 0
                flipPuzzle.target ∧
              ∀ slot,
                (stream2HashGoalKernel (flipLaunch host runtime 0)
                    0 0 1 [0] emptyLaunchMemory).solved.slots
                    slot =
                  emptyLaunchMemory.solved.slots slot := by
  refine
    ⟨.disabled, disabledSuffixes .composedPermutations, rfl, rfl,
      flipLaunch_child _ _ _, at_zero.mpr rfl, fun slot => ?_⟩
  have hAppended := threads_appended
    (flipLaunch .disabled
      (disabledSuffixes .composedPermutations) 0)
    0 0 [0] emptyLaunchMemory
  exact hAppended.kept slot (Or.inr (Or.inr (Nat.zero_le _)))

end Stream2

end BeamSearch
