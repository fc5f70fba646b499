import BeamSearch.Solve.NeighborhoodExact
import BeamSearch.Stream2.Suffixes

/-
  The hash and goal kernel of stream 2.

  A thread hashes one child of a frontier state. If the child is
  a solved one, or a suffix leads from it to one, the thread takes
  the next index of the solved list and stores a record there, or
  raises the overflow flag if the list is full. The kernel comes
  in two forms, which find their job in different ways.

  Main declarations:
    * `scanPositions`
    * `stream2SuffixFindHit`, `hashGoal`
    * `recordHit`
    * `stream2HashGoalKernel`
    * `stream2HashGoalGraphJobKernel`
-/

namespace BeamSearch

open Final Solve

namespace Stream2

----------------
-- One Child
----------------

/-
  What the loop over the places leaves: the hash, and whether
  all places match.
-/
structure PositionScan where
  hash : Hash128
  matched : Bool

/- Hash the bytes of a state and compare them with the target. -/
def scanPositions
    (puzzle : Puzzle)
    (zobrist : ZobristTable)
    (useNeighborhood : Bool)
    (value : Nat → UInt8) : PositionScan :=
  (List.range puzzle.layout.storageLen).foldl
    (fun scan p =>
      { hash := hashXor scan.hash (zobrist p (value p))
        matched :=
          if !useNeighborhood && value p != puzzle.target p then
            false
          else scan.matched })
    ⟨⟨0, 0⟩, !useNeighborhood⟩

/- The tables that the kernel is given. -/
structure GoalTables where
  neighborhood : SolvedNeighborhoodDeviceTable
  suffix : Stream2SuffixDeviceTable

/-
  A goal is found in the neighbourhood, or by the target
  itself.
-/
def foundIn (tables : GoalTables) (scan : PositionScan) : Bool :=
  if tables.neighborhood.enabled then
    solvedNeighborhoodContains tables.neighborhood scan.hash
  else scan.matched

/- The child of the parent, with a suffix applied to it. -/
def scanSuffix
    (puzzle : Puzzle)
    (zobrist : ZobristTable)
    (tables : GoalTables)
    (parent : State)
    (immediateMove suffixId : Nat) : PositionScan :=
  scanPositions puzzle zobrist tables.neighborhood.enabled fun p =>
    parent
      (puzzle.generators immediateMove
        (stream2SuffixSourceIndex puzzle tables.suffix suffixId p))

/- The first suffix, by its index, that leads to a goal. -/
def stream2SuffixFindHit
    (puzzle : Puzzle)
    (zobrist : ZobristTable)
    (tables : GoalTables)
    (parent : State)
    (immediateMove : Nat) : Option (Hash128 × UInt32) :=
  let scan := scanSuffix puzzle zobrist tables parent immediateMove
  if tables.suffix.enabled = false ∨
      tables.suffix.suffixCount ≤ 1 then
    none
  else
    ((List.range' 1 (tables.suffix.suffixCount.toNat - 1)).find?
        fun suffixId => foundIn tables (scan suffixId)).map
      fun suffixId =>
        ((scan suffixId).hash, UInt32.ofNat suffixId)

/- The hash of the child and the hit, if there is one. -/
structure GoalCheck where
  hash : Hash128
  hit : Option (Hash128 × UInt32)

/-
  The check of one child, without a suffix first and then with
  each of them.
-/
def hashGoal
    (puzzle : Puzzle)
    (zobrist : ZobristTable)
    (tables : GoalTables)
    (parent : State)
    (move : Nat) : GoalCheck :=
  let scan :=
    scanPositions puzzle zobrist tables.neighborhood.enabled
      fun p => parent (puzzle.generators move p)
  { hash := scan.hash
    hit :=
      if foundIn tables scan then some (scan.hash, 0)
      else if tables.suffix.enabled then
        stream2SuffixFindHit puzzle zobrist tables parent move
      else none }

----------------
-- The Solved List
----------------

/-
  The counter is a 32-bit word and counts the hits that found no
  room too; a depth with 2^32 hits, which would start it again, is
  not modelled.
-/
structure SolvedBuffers where
  solvedCount : Nat
  slots : Nat → SolvedHit
  overflow : Bool
  solvedFlag : Bool
  stopFlag : Bool

/- Take an index; the first record of all may stop the search. -/
def recordHit
    (capacity : Nat)
    (stopOnFound : Bool)
    (solved : SolvedBuffers)
    (hit : SolvedHit) : SolvedBuffers :=
  let idx := solved.solvedCount
  let stored :=
    if idx < capacity then
      { solved with
        solvedCount := idx + 1
        slots := Function.update solved.slots idx hit }
    else
      { solved with
        solvedCount := idx + 1
        overflow := true }
  if stored.solvedFlag then stored
  else
    { stored with
      solvedFlag := true
      stopFlag := stored.stopFlag || stopOnFound }

----------------
-- The Kernels
----------------

/- What a launch reads. -/
structure Launch where
  puzzle : Puzzle
  zobrist : ZobristTable
  tables : GoalTables
  currentFrontierStates : Nat → State
  parentBase : Nat → UInt64
  count : Nat → UInt32
  bMicro : UInt32
  depth : UInt32
  currentDepth : Option UInt32
  localRank : UInt32
  capacity : Nat
  stopOnFound : Bool

/- The memory that the kernel writes. -/
structure LaunchMemory where
  hashRing : Nat → Hash128
  solved : SolvedBuffers

namespace Launch

/- The threads of a job. The product is a 32-bit word. -/
def total (launch : Launch) : Nat :=
  (launch.bMicro * UInt32.ofNat launch.puzzle.moveCount).toNat

/- The depth that a hit is reported at. -/
def solvedDepth (launch : Launch) : UInt32 :=
  launch.currentDepth.getD launch.depth

/- The parent of a thread inside its job. -/
def parentLocal (launch : Launch) (candidate : Nat) : Nat :=
  candidate / launch.puzzle.moveCount

/- The move of a thread. -/
def move (launch : Launch) (candidate : Nat) : Nat :=
  candidate % launch.puzzle.moveCount

/- The index of its parent in the frontier. -/
def parentIdx (launch : Launch) (job candidate : Nat) : UInt64 :=
  launch.parentBase job +
    UInt64.ofNat (launch.parentLocal candidate)

/- The state of its parent. -/
def parent (launch : Launch) (job candidate : Nat) : State :=
  launch.currentFrontierStates (launch.parentIdx job candidate).toNat

/- A thread with a parent of the job. -/
def Live (launch : Launch) (job candidate : Nat) : Prop :=
  candidate < launch.total ∧
    launch.parentLocal candidate < (launch.count job).toNat

/- Whether a thread has a parent can be computed. -/
instance (launch : Launch) (job candidate : Nat) :
    Decidable (launch.Live job candidate) :=
  inferInstanceAs (Decidable (_ ∧ _))

/- What a thread finds. -/
def check (launch : Launch) (job candidate : Nat) : GoalCheck :=
  hashGoal launch.puzzle launch.zobrist launch.tables
    (launch.parent job candidate) (launch.move candidate)

/- The hit of a thread, with the score of a goal. -/
def makeHit
    (launch : Launch)
    (job candidate : Nat)
    (found : Hash128 × UInt32) : SolvedHit where
  candidate :=
    { hash := found.1
      parentIdx := launch.parentIdx job candidate
      scoreKey := goalScoreKey
      routePacked :=
        launch.localRank <<< 16 ||| launch.localRank <<< 8 |||
          UInt32.ofNat (launch.move candidate) }
  depth := launch.solvedDepth
  suffix := found.2

/- The record a thread appends, if it finds a hit. -/
def threadHit
    (launch : Launch)
    (job candidate : Nat) : Option SolvedHit :=
  if launch.Live job candidate then
    (launch.check job candidate).hit.map
      (launch.makeHit job candidate)
  else none

/-
  A thread with a parent writes its hash, and its hit where
  there is one.
-/
def thread
    (launch : Launch)
    (job hashJob : Nat)
    (memory : LaunchMemory)
    (candidate : Nat) : LaunchMemory :=
  if launch.Live job candidate then
    let hashOffset :=
      (hashJob * launch.bMicro.toNat +
            launch.parentLocal candidate) *
          launch.puzzle.moveCount +
        launch.move candidate
    { hashRing :=
        Function.update memory.hashRing hashOffset
          (launch.check job candidate).hash
      solved :=
        match launch.threadHit job candidate with
        | none => memory.solved
        | some hit =>
            recordHit launch.capacity launch.stopOnFound
              memory.solved hit }
  else memory

end Launch

/- The threads in the order in which they reach the list. -/
def stream2HashGoalKernel
    (launch : Launch)
    (ring ringSlot ringSlotCount : UInt32)
    (order : List Nat)
    (memory : LaunchMemory) : LaunchMemory :=
  order.foldl
    (launch.thread (ring * ringSlotCount + ringSlot).toNat
      (ring.toNat * ringSlotCount.toNat + ringSlot.toNat))
    memory

/- One job of a graph, its threads in some order. -/
def stream2HashGoalGraphJobKernel
    (launch : Launch)
    (graphJobIndex : UInt32)
    (order : List Nat)
    (memory : LaunchMemory) : LaunchMemory :=
  order.foldl
    (launch.thread graphJobIndex.toNat graphJobIndex.toNat) memory

----------------
-- Appended Records
----------------

/- The records take the next indices, as far as the list goes. -/
structure Appended
    (capacity : Nat)
    (hits : List SolvedHit)
    (before after : SolvedBuffers) : Prop where
  count : after.solvedCount = before.solvedCount + hits.length
  stored : ∀ i (hi : i < hits.length),
    before.solvedCount + i < capacity →
      after.slots (before.solvedCount + i) = hits[i]
  kept : ∀ slot,
    slot < before.solvedCount ∨
        before.solvedCount + hits.length ≤ slot ∨
          capacity ≤ slot →
      after.slots slot = before.slots slot
  overflow : after.overflow =
    (before.overflow ||
      decide
        (hits ≠ [] ∧ capacity < before.solvedCount + hits.length))
  flag : after.solvedFlag =
    (before.solvedFlag || decide (hits ≠ []))

theorem recordHit_appended
    (capacity : Nat)
    (stopOnFound : Bool)
    (before : SolvedBuffers)
    (hit : SolvedHit) :
    Appended capacity [hit] before
      (recordHit capacity stopOnFound before hit) := by
  by_cases hRoom : before.solvedCount < capacity
  · have hNoOverflow :
        ¬ capacity < before.solvedCount + 1 := by omega
    refine ⟨?_, ?_, ?_, ?_, ?_⟩
    · simp only [recordHit, if_pos hRoom]
      split_ifs <;> rfl
    · intro i hi hStored
      have hZero : i = 0 := by
        simpa using hi
      subst hZero
      simp only [recordHit, if_pos hRoom]
      split_ifs <;> simp
    · intro slot hOther
      have hNe : slot ≠ before.solvedCount := by
        simp only [List.length_singleton] at hOther
        omega
      simp only [recordHit, if_pos hRoom]
      split_ifs <;> simp [Function.update_of_ne hNe]
    · simp only [recordHit, if_pos hRoom]
      split_ifs <;> simp [hNoOverflow]
    · simp only [recordHit, if_pos hRoom]
      split_ifs with hFlag <;> simp [hFlag]
  · have hOverflow : capacity < before.solvedCount + 1 := by omega
    refine ⟨?_, ?_, ?_, ?_, ?_⟩
    · simp only [recordHit, if_neg hRoom]
      split_ifs <;> rfl
    · intro i hi hStored
      omega
    · intro slot _
      simp only [recordHit, if_neg hRoom]
      split_ifs <;> rfl
    · simp only [recordHit, if_neg hRoom]
      split_ifs <;> simp [hOverflow]
    · simp only [recordHit, if_neg hRoom]
      split_ifs with hFlag <;> simp [hFlag]

theorem Appended.nil
    (capacity : Nat)
    (before : SolvedBuffers) :
    Appended capacity [] before before where
  count := rfl
  stored := fun i hi => absurd hi (Nat.not_lt_zero i)
  kept := fun _ _ => rfl
  overflow := by simp
  flag := by simp

theorem Appended.snoc
    {capacity : Nat}
    {hits : List SolvedHit}
    {before after last : SolvedBuffers}
    {hit : SolvedHit}
    (hFirst : Appended capacity hits before after)
    (hLast : Appended capacity [hit] after last) :
    Appended capacity (hits ++ [hit]) before last := by
  have hCount := hFirst.count
  have hLength : (hits ++ [hit]).length = hits.length + 1 := by
    rw [List.length_append, List.length_singleton]
  refine ⟨?_, ?_, ?_, ?_, ?_⟩
  · rw [hLast.count, hCount, hLength, List.length_singleton,
      Nat.add_assoc]
  · intro i hi hRoom
    rw [hLength] at hi
    by_cases hOld : i < hits.length
    · rw [List.getElem_append_left hOld,
        ← hFirst.stored i hOld hRoom]
      exact hLast.kept _ (Or.inl (by omega))
    · have hSame : i = hits.length := by omega
      subst hSame
      rw [List.getElem_append_right (le_refl _), ← hCount]
      have hHere := hLast.stored 0 Nat.one_pos (by omega)
      rw [Nat.add_zero] at hHere
      rw [hHere]
      simp
  · intro slot hOther
    rw [hLength] at hOther
    rw [hLast.kept slot (by
      rw [List.length_singleton]
      omega)]
    exact hFirst.kept slot (by omega)
  · rw [hLast.overflow, hFirst.overflow, hCount, hLength,
      Bool.or_assoc]
    congr 1
    by_cases hNil : hits = []
    · subst hNil
      simp
    · simp only [ne_eq, hNil, not_false_eq_true, true_and,
        List.length_singleton, List.append_eq_nil_iff,
        List.cons_ne_nil, and_false]
      rw [← Bool.decide_or]
      refine decide_eq_decide.mpr ?_
      omega
  · rw [hLast.flag, hFirst.flag]
    simp

/- Whatever the order, one record for every thread with a hit. -/
theorem threads_appended
    (launch : Launch)
    (job hashJob : Nat)
    (order : List Nat)
    (memory : LaunchMemory) :
    Appended launch.capacity
      (order.filterMap (launch.threadHit job)) memory.solved
      (order.foldl (launch.thread job hashJob) memory).solved := by
  induction order using List.reverseRecOn with
  | nil => exact Appended.nil _ _
  | append_singleton order candidate ih =>
      rw [List.foldl_append, List.filterMap_append]
      rw [List.foldl_cons, List.foldl_nil, Launch.thread]
      by_cases hLive : launch.Live job candidate
      · rw [if_pos hLive]
        cases hHit : launch.threadHit job candidate with
        | none =>
            rw [List.filterMap_cons, hHit, List.filterMap_nil,
              List.append_nil]
            exact ih
        | some hit =>
            rw [List.filterMap_cons, hHit, List.filterMap_nil]
            exact ih.snoc (recordHit_appended _ _ _ _)
      · have hNone : launch.threadHit job candidate = none :=
          if_neg hLive
        rw [if_neg hLive, List.filterMap_cons, hNone,
          List.filterMap_nil, List.append_nil]
        exact ih

end Stream2

end BeamSearch
