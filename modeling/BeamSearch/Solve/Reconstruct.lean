import BeamSearch.Core.Errors
import BeamSearch.Final.Materialize
import BeamSearch.History.Store
import BeamSearch.Lib.Text

/-
  Solved hits and the move lists they stand for.

  A hit is a candidate with the depth it was found at and a
  suffix of moves. Its parents are read back from the history,
  on the rank its route names, and the two suffixes follow. The
  best of the ranks' hits is taken.

  Main declarations:
    * `SolvedHit`, `solvedTotalDepth`
    * `readSolvedSnapshotHeader`, `hitBetter`
    * `reconstructSolutionFromHistory`
    * `reconstructSolutionDistributed`
-/

namespace BeamSearch

open Text

namespace Solve

open Final

----------------
-- Suffixes
----------------

/- Five bits for every move, the first move lowest. -/
structure PackedSuffix where
  moves : UInt64
  len : UInt8
deriving DecidableEq, Repr

/- The five bits of a move. -/
def packedMove (suffix : PackedSuffix) (i : Nat) : Nat :=
  suffix.moves.toNat >>> (5 * i) % 32

/- The moves of a suffix, behind the others. -/
def appendPackedSuffix
    (moves : List Nat)
    (suffix : PackedSuffix) : List Nat :=
  moves ++ (List.range suffix.len.toNat).map (packedMove suffix)

/-
  The suffixes that lead from the neighbourhood to the target.
-/
structure SolvedNeighborhood where
  enabled : Bool
  suffixByHash : List (Hash128 × PackedSuffix)

/- Without a neighbourhood the suffix is empty. -/
def SolvedNeighborhood.suffixFor
    (neighborhood : SolvedNeighborhood)
    (hash : Hash128) : Except Exception PackedSuffix :=
  if neighborhood.enabled = false then .ok ⟨0, 0⟩
  else
    match neighborhood.suffixByHash.lookup hash with
    | none =>
        .error
          (.runtimeError
            "solved neighborhood hit is missing CPU suffix")
    | some suffix => .ok suffix

/- The suffixes that the forward search tried. -/
structure Stream2Suffix where
  suffixes : List PackedSuffix

namespace Stream2Suffix

/- The suffix of an index. -/
def suffixFor
    (table : Stream2Suffix)
    (suffixId : UInt32) : Except Exception PackedSuffix :=
  match table.suffixes[suffixId.toNat]? with
  | none =>
      .error
        (.runtimeError "stream2 suffix id exceeds suffix table")
  | some suffix => .ok suffix

/- Index zero without a table is no suffix. -/
def suffixLen
    (table : Stream2Suffix)
    (suffixId : UInt32) : Except Exception UInt8 :=
  if suffixId = 0 ∧ table.suffixes = [] then .ok 0
  else (table.suffixFor suffixId).map PackedSuffix.len

end Stream2Suffix

/- Both tables of suffixes. -/
structure SuffixTables where
  neighborhood : SolvedNeighborhood
  stream2 : Stream2Suffix

----------------
-- Hits
----------------

/- One slot of the three solved lists. -/
structure SolvedHit where
  candidate : CandidateMeta
  depth : UInt32
  suffix : UInt32
deriving DecidableEq, Repr

/- The solved buffers of one rank. -/
structure SolvedMemory where
  flag : Bool
  count : Nat
  overflow : Nat
  hits : List SolvedHit

/- What is read first of the solved results. -/
structure SolvedSnapshotHeader where
  found : Bool
  count : Nat
  overflow : Nat

/- Without the flag the counters are not read. -/
def readSolvedSnapshotHeader
    (memory : SolvedMemory) : SolvedSnapshotHeader :=
  if memory.flag then ⟨true, memory.count, memory.overflow⟩
  else ⟨false, 0, 0⟩

/-
  The depth in all: forward, by the tried suffix, and through
  the neighbourhood. The sum wraps.
-/
def solvedTotalDepth
    (tables : SuffixTables)
    (hash : Hash128)
    (prefixDepth suffixId : UInt32) :
    Except Exception UInt32 := do
  let suffixDepth ← tables.stream2.suffixLen suffixId
  let suffix ← tables.neighborhood.suffixFor hash
  .ok (prefixDepth + suffixDepth.toUInt32 + suffix.len.toUInt32)

/- The depth of a hit. -/
def SolvedHit.totalDepth
    (tables : SuffixTables)
    (hit : SolvedHit) : Except Exception UInt32 :=
  solvedTotalDepth tables hit.candidate.hash hit.depth hit.suffix

/- Depth first, then parent, route, hash and suffix. -/
def hitBetter
    (totalDepth : UInt32)
    (hit : SolvedHit)
    (bestTotalDepth : UInt32)
    (best : SolvedHit) : Bool :=
  let a := hit.candidate
  let b := best.candidate
  totalDepth < bestTotalDepth ||
    (totalDepth == bestTotalDepth && a.parentIdx < b.parentIdx) ||
    (totalDepth == bestTotalDepth && a.parentIdx == b.parentIdx &&
      a.routePacked < b.routePacked) ||
    (totalDepth == bestTotalDepth && a.parentIdx == b.parentIdx &&
      a.routePacked == b.routePacked && hashLess a.hash b.hash) ||
    (totalDepth == bestTotalDepth && a.parentIdx == b.parentIdx &&
      a.routePacked == b.routePacked && a.hash == b.hash &&
      hit.suffix < best.suffix)

----------------
-- Solutions
----------------

/- The moves, and the parents they were found by. -/
structure ReconstructedSolution where
  moves : List Nat
  parentIndices : List Nat
deriving DecidableEq, Repr

/- What one rank's history answers. -/
structure HistoryView where
  depthCount : Nat
  readEntry : Nat → Nat → Except Exception History.Entry

/- The cursor of a hit. -/
def hitEntry (candidate : CandidateMeta) : History.Entry :=
  ⟨candidate.parentIdx.toNat, candidate.routePacked, 0⟩

/- From the last move back to the first one. -/
def walkHistory
    (read : Nat → History.Entry → Except Exception History.Entry) :
    Nat → History.Entry → Except Exception ReconstructedSolution
  | 0, cursor =>
      .ok ⟨[unpackMove cursor.route], [cursor.parentIdx]⟩
  | depth + 1, cursor => do
      let next ← read depth cursor
      let before ← walkHistory read depth next
      .ok
        ⟨before.moves ++ [unpackMove cursor.route],
          before.parentIndices ++ [cursor.parentIdx]⟩

/- The moves from the history, last one first. -/
def reconstructSolutionFromHistory
    (history : HistoryView)
    (candidate : CandidateMeta)
    (solvedDepth : Nat) :
    Except Exception ReconstructedSolution :=
  if solvedDepth = 0 then
    .error (.runtimeError "solved depth must be positive")
  else if solvedDepth > history.depthCount + 1 then
    .error
      (.runtimeError
        "solved depth exceeds stored candidate history")
  else
    walkHistory
      (fun depth cursor =>
        history.readEntry depth cursor.parentIdx)
      (solvedDepth - 1) (hitEntry candidate)

/- Both suffixes behind the moves of the history. -/
def appendSolutionSuffixes
    (tables : SuffixTables)
    (solution : ReconstructedSolution)
    (suffixId : UInt32)
    (hash : Hash128) :
    Except Exception ReconstructedSolution := do
  let moves ←
    if suffixId = 0 then .ok solution.moves
    else
      (tables.stream2.suffixFor suffixId).map
        (appendPackedSuffix solution.moves)
  if tables.neighborhood.enabled = false then
    .ok { solution with moves := moves }
  else do
    let suffix ← tables.neighborhood.suffixFor hash
    .ok { solution with moves := appendPackedSuffix moves suffix }

----------------
-- Packets
----------------

/- The eight words a hit travels in; the first one says if
there is a hit. -/
structure Packet where
  present : UInt64
  ownerRank : UInt64
  depth : UInt64
  parentIdx : UInt64
  routePacked : UInt64
  hashLo : UInt64
  hashHi : UInt64
  suffixId : UInt64
deriving DecidableEq, Repr

/- The score of a goal. -/
def goalScoreKey : UInt32 :=
  0

/- A hit as words. -/
def packHit (rank : UInt32) (hit : SolvedHit) : Packet where
  present := 1
  ownerRank := rank.toUInt64
  depth := hit.depth.toUInt64
  parentIdx := hit.candidate.parentIdx
  routePacked := hit.candidate.routePacked.toUInt64
  hashLo := hit.candidate.hash.lo
  hashHi := hit.candidate.hash.hi
  suffixId := hit.suffix.toUInt64

/- The words of a rank without a hit. -/
def emptyPacket (rank : UInt32) : Packet where
  present := 0
  ownerRank := rank.toUInt64
  depth := 0
  parentIdx := 0
  routePacked := 0
  hashLo := 0
  hashHi := 0
  suffixId := 0

/- The hit of some words; its score is the goal's. -/
def unpackHit (packet : Packet) : SolvedHit where
  candidate :=
    { hash := ⟨packet.hashLo, packet.hashHi⟩
      parentIdx := packet.parentIdx
      scoreKey := goalScoreKey
      routePacked := packet.routePacked.toUInt32 }
  depth := packet.depth.toUInt32
  suffix := packet.suffixId.toUInt32

/- A hit without the score of its candidate. -/
def SolvedHit.atGoal (hit : SolvedHit) : SolvedHit :=
  { hit with
    candidate := { hit.candidate with scoreKey := goalScoreKey } }

theorem unpackHit_packHit
    (rank : UInt32)
    (hit : SolvedHit) :
    unpackHit (packHit rank hit) = hit.atGoal := by
  cases hit with
  | mk candidate depth suffix =>
      cases candidate
      simp [unpackHit, packHit, SolvedHit.atGoal]

----------------
-- All Ranks
----------------

/- The hit that was chosen, and whose it is. -/
structure ChosenHit where
  owner : Nat
  totalDepth : UInt32
  hit : SolvedHit
deriving DecidableEq, Repr

/- The same order on every rank, then the lower rank. -/
def chooseStep
    (tables : SuffixTables)
    (best : Option ChosenHit)
    (peer : Nat × Packet) :
    Except Exception (Option ChosenHit) :=
  if peer.2.present = 0 then .ok best
  else do
    let hit := unpackHit peer.2
    let totalDepth ← hit.totalDepth tables
    let chosen : ChosenHit := ⟨peer.1, totalDepth, hit⟩
    match best with
    | none => .ok (some chosen)
    | some incumbent =>
        .ok
          (if hitBetter totalDepth hit incumbent.totalDepth
                incumbent.hit ||
              (totalDepth == incumbent.totalDepth &&
                hit.candidate.parentIdx ==
                  incumbent.hit.candidate.parentIdx &&
                hit.candidate.routePacked ==
                  incumbent.hit.candidate.routePacked &&
                hit.candidate.hash ==
                  incumbent.hit.candidate.hash &&
                hit.suffix == incumbent.hit.suffix &&
                decide (peer.1 < incumbent.owner)) then
            some chosen
          else some incumbent)

/- The packets of all ranks, in rank order. -/
def gatherPackets
    (worldSize : Nat)
    (locals : Nat → Option SolvedHit) : List (Nat × Packet) :=
  (List.range worldSize).map fun rank =>
    (rank,
      match locals rank with
      | none => emptyPacket (UInt32.ofNat rank)
      | some hit => packHit (UInt32.ofNat rank) hit)

/- The best of the packets. -/
def chooseHit
    (tables : SuffixTables)
    (packets : List (Nat × Packet)) :
    Except Exception (Option ChosenHit) :=
  packets.foldlM (chooseStep tables) none

/- A parent is read on the rank its child's route names. -/
def readFromRank
    (worldSize : Nat)
    (histories : Nat → HistoryView)
    (depth : Nat)
    (cursor : History.Entry) : Except Exception History.Entry :=
  let target := unpackSourceRank cursor.route
  if target ≥ worldSize then
    .error
      (.runtimeError
        "distributed history source rank exceeds WORLD_SIZE")
  else do
    let entry ← (histories target).readEntry depth cursor.parentIdx
    .ok ⟨entry.parentIdx, entry.route, 0⟩

/- The words of the scratch. -/
def reconstructionScratchWords (worldSize : Nat) : Nat :=
  8 * (worldSize + 1) + 6

/-
  The collective reconstruction. The packets and every answer
  are seen by all ranks alike; rank zero keeps the moves.
-/
def reconstructSolutionDistributed
    (tables : SuffixTables)
    (worldSize scratchWords : Nat)
    (histories : Nat → HistoryView)
    (locals : Nat → Option SolvedHit) :
    Except Exception (Option (ChosenHit × ReconstructedSolution)) :=
  if worldSize ≤ 1 then
    .error
      (.invalidArgument
        "distributed reconstruction requires WORLD_SIZE > 1")
  else if scratchWords < reconstructionScratchWords worldSize then
    .error
      (.runtimeError
        "distributed reconstruction scratch buffer is too small")
  else do
    let chosen ← chooseHit tables (gatherPackets worldSize locals)
    match chosen with
    | none => .ok none
    | some best =>
        if best.hit.depth = 0 then
          .error
            (.runtimeError
              "distributed solved depth must be positive")
        else do
          let solution ←
            walkHistory (readFromRank worldSize histories)
              (best.hit.depth.toNat - 1)
              (hitEntry best.hit.candidate)
          let whole ←
            appendSolutionSuffixes tables solution best.hit.suffix
              best.hit.candidate.hash
          .ok (some (best, whole))

----------------
-- Validation
----------------

/- A puzzle as the host has it. -/
structure Puzzle where
  layout : StateLayout
  moveCount : Nat
  generators : Nat → Nat → Nat
  initial : State
  target : State
  names : List Text

/- One move; an unknown one is refused. -/
def applyMoveFlatHost
    (puzzle : Puzzle)
    (parent : State)
    (move : Nat) : Except Exception State :=
  if move ≥ puzzle.moveCount then
    .error (.runtimeError "solution move exceeds MOVE_COUNT")
  else
    .ok
      (clearStatePadding puzzle.layout
        (applyMove puzzle.layout parent (puzzle.generators move)))

/- All moves from the start. -/
def applySolutionMoves
    (puzzle : Puzzle)
    (moves : List Nat) : Except Exception State :=
  moves.foldlM (applyMoveFlatHost puzzle)
    (clearStatePadding puzzle.layout puzzle.initial)

/- The states are the same in every stored place. -/
def statesEqualStorage
    (layout : StateLayout)
    (a b : State) : Bool :=
  (List.range layout.storageLen).all fun p => a p == b p

/- A prime behind the name becomes a minus before it. -/
def submitMoveName (rawName : Text) : Text :=
  if rawName.getLast? = some '\'' then '-' :: rawName.dropLast
  else rawName

/- The name of a move. -/
def moveName
    (names : List Text)
    (move : Nat) : Except Exception Text :=
  match names[move]? with
  | none =>
      .error
        (.runtimeError "solution move index exceeds names table")
  | some name => .ok (submitMoveName name)

/- The names with dots between them. -/
def movesToPathText
    (names : List Text)
    (moves : List Nat) : Except Exception Text := do
  let words ← moves.mapM (moveName names)
  .ok (['.'].intercalate words)

end Solve

end BeamSearch
