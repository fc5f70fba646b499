import BeamSearch.Core.Domain
import BeamSearch.Lib.Distance
import BeamSearch.Lib.Probing
import BeamSearch.Solve.PackedMoves

/-
  The solved neighborhood of a target state.

  The states from which the target is a few moves away are found
  backwards from it, by undoing moves layer by layer, and known
  by their hashes alone. The moves that are left are packed into
  one word. For the device the hashes go to a table with two
  buckets for each of them; when a hash finds no slot, the table
  is built again with twice as many buckets.

  Main declarations:
    * `hashState`, `applyInverseMoveFlatHost`
    * `searchLayers`
    * `placeSolvedNeighborhoodEntry`
    * `solvedNeighborhoodContains`
    * `buildSolvedNeighborhoodHost`
-/

namespace BeamSearch

open Distance Final Probing

namespace Solve

----------------
-- States
----------------

/- A hash for each place and value. -/
abbrev ZobristTable : Type :=
  Nat → UInt8 → Hash128

/- Both words apart. -/
def hashXor (a b : Hash128) : Hash128 :=
  ⟨a.lo ^^^ b.lo, a.hi ^^^ b.hi⟩

/- The hash of a state: the exclusive or over its places. -/
def hashState
    (layout : StateLayout)
    (zobrist : ZobristTable)
    (state : State) : Hash128 :=
  (List.range layout.storageLen).foldl
    (fun hash p => hashXor hash (zobrist p (state p))) ⟨0, 0⟩

/- The state that the move leads to this one from. -/
def applyInverseMoveFlatHost
    (puzzle : Puzzle)
    (child : State)
    (move : Nat) : Except Exception State :=
  if move ≥ puzzle.moveCount then
    .error (.runtimeError "inverse move exceeds MOVE_COUNT")
  else
    .ok
      (clearStatePadding puzzle.layout
        ((List.range puzzle.layout.storageLen).foldl
          (fun parent p =>
            Function.update parent (puzzle.generators move p)
              (child p))
          fun _ => 0))

----------------
-- Layers
----------------

/- A state of the neighbourhood with its moves to the target. -/
structure SolvedNeighborhoodNode where
  state : State
  hash : Hash128
  suffix : PackedSuffix

/- The hashes found so far and the nodes of the next layer. -/
structure LayerSearch where
  suffixByHash : List (Hash128 × PackedSuffix)
  next : List SolvedNeighborhoodNode

/-
  What the source throws for a neighbourhood that is too
  large.
-/
def exceededMaxEntries : Exception :=
  .runtimeError
    "solved neighborhood exceeded BEAM_SOLVED_NEIGHBORHOOD_MAX_ENTRIES"

/-
  One move back from a node; a hash that is known is passed
  over.
-/
def visitPredecessor
    (puzzle : Puzzle)
    (zobrist : ZobristTable)
    (maxEntries : Nat)
    (node : SolvedNeighborhoodNode)
    (search : LayerSearch)
    (move : Nat) : Except Exception LayerSearch := do
  let predecessor ←
    applyInverseMoveFlatHost puzzle node.state move
  let hash := hashState puzzle.layout zobrist predecessor
  if (search.suffixByHash.lookup hash).isSome then
    .ok search
  else do
    let suffix ←
      prependSuffixMove puzzle.moveCount node.suffix move
    if maxEntries ≠ 0 ∧
        search.suffixByHash.length ≥ maxEntries then
      .error exceededMaxEntries
    else
      .ok
        { suffixByHash := search.suffixByHash ++ [(hash, suffix)]
          next := search.next ++ [⟨predecessor, hash, suffix⟩] }

/- All moves back from a node. -/
def visitNode
    (puzzle : Puzzle)
    (zobrist : ZobristTable)
    (maxEntries : Nat)
    (search : LayerSearch)
    (node : SolvedNeighborhoodNode) :
    Except Exception LayerSearch :=
  (List.range puzzle.moveCount).foldlM
    (visitPredecessor puzzle zobrist maxEntries node) search

/- The hashes seen, the last layer and all nodes. -/
structure Layers where
  suffixByHash : List (Hash128 × PackedSuffix)
  frontier : List SolvedNeighborhoodNode
  allNodes : List SolvedNeighborhoodNode

/- The next layer. -/
def expandFrontier
    (puzzle : Puzzle)
    (zobrist : ZobristTable)
    (maxEntries : Nat)
    (layers : Layers) : Except Exception Layers := do
  let search ←
    layers.frontier.foldlM (visitNode puzzle zobrist maxEntries)
      ⟨layers.suffixByHash, []⟩
  .ok
    { suffixByHash := search.suffixByHash
      frontier := search.next
      allNodes := layers.allNodes ++ search.next }

/- Layer by layer; an empty layer ends the walk. -/
def searchLayers
    (puzzle : Puzzle)
    (zobrist : ZobristTable)
    (maxEntries : Nat) :
    (radius : Nat) → Layers → Except Exception Layers
  | 0, layers => .ok layers
  | radius + 1, layers =>
      if layers.frontier.isEmpty then .ok layers
      else do
        let next ← expandFrontier puzzle zobrist maxEntries layers
        searchLayers puzzle zobrist maxEntries radius next

/- The target alone. -/
def startLayers
    (layout : StateLayout)
    (zobrist : ZobristTable)
    (central : State) : Layers :=
  let hash := hashState layout zobrist central
  { suffixByHash := [(hash, ⟨0, 0⟩)]
    frontier := [⟨central, hash, ⟨0, 0⟩⟩]
    allNodes := [⟨central, hash, ⟨0, 0⟩⟩] }

----------------
-- Buckets
----------------

/- The slots of a bucket. -/
def solvedNeighborhoodBucketSize : UInt32 :=
  4

/- The slots of both buckets, in the order they are tried. -/
def bucketSlots (mask : UInt32) (hash : Hash128) : List Nat :=
  [hash128BucketKey0 hash, hash128BucketKey1 hash].flatMap
    fun key =>
      let base :=
        (key.toUInt32 &&& mask) * solvedNeighborhoodBucketSize
      (List.range solvedNeighborhoodBucketSize.toNat).map
        fun i => (base + UInt32.ofNat i).toNat

/- A fingerprint of zero marks an empty slot. -/
def bucketScheme (mask : UInt32) : Scheme Hash128 UInt32 where
  empty := 0
  tag := hash128Fingerprint32
  probes := bucketSlots mask
  tag_ne := hash128Fingerprint32_ne_zero

/- A hash goes to its first empty slot. -/
def placeSolvedNeighborhoodEntry
    (bucketCount : UInt32)
    (slots : Slots Hash128 UInt32)
    (hash : Hash128) : Option (Slots Hash128 UInt32) :=
  place (bucketScheme (bucketCount - 1)) slots hash

/- A table without entries. -/
def emptySlots : Slots Hash128 UInt32 where
  tags := fun _ => 0
  keys := fun _ => ⟨0, 0⟩

/-
  Double the buckets until every hash has a slot. From one bucket
  on, the count is past its range after 32 doublings.
-/
def packBuckets
    (hashes : List Hash128)
    (fixed : Bool) :
    (doublings : Nat) → (bucketCount : Nat) →
      Except Exception (UInt32 × Slots Hash128 UInt32)
  | 0, _ =>
      .error
        (.runtimeError
          "solved neighborhood bucket count exceeds uint32 range")
  | doublings + 1, bucketCount =>
      if bucketCount > 2 ^ 32 - 1 then
        .error
          (.runtimeError
            "solved neighborhood bucket count exceeds uint32 range")
      else
        match
          hashes.foldlM
            (placeSolvedNeighborhoodEntry
              (UInt32.ofNat bucketCount))
            emptySlots
        with
        | some slots => .ok (UInt32.ofNat bucketCount, slots)
        | none =>
            if fixed then
              .error
                (.runtimeError
                  "solved neighborhood does not fit stable fixed bucket arena")
            else
              packBuckets hashes fixed doublings (bucketCount * 2)

/-
  The bits below the leading one are filled, and one is added.
-/
def nextPowerOfTwo (value : Nat) : Nat :=
  if value ≤ 1 then 1
  else
    [1, 2, 4, 8, 16, 32].foldl
      (fun value shift => value ||| value >>> shift)
      (value - 1) + 1

----------------
-- The Neighborhood
----------------

/- The neighbourhood on the host, with its table. -/
structure HostSolvedNeighborhood where
  radius : Nat
  bucketCount : UInt32
  entryCount : Nat
  slotCount : Nat
  slots : Slots Hash128 UInt32
  suffixByHash : List (Hash128 × PackedSuffix)

namespace HostSolvedNeighborhood

/- A table that can have entries. -/
def enabled (host : HostSolvedNeighborhood) : Bool :=
  host.radius != 0 && host.slotCount != 0

/- No neighbourhood was asked for. -/
def disabled : HostSolvedNeighborhood where
  radius := 0
  bucketCount := 0
  entryCount := 0
  slotCount := 0
  slots := emptySlots
  suffixByHash := []

/- What the host keeps of the neighborhood at run time. -/
def runtime (host : HostSolvedNeighborhood) : SolvedNeighborhood where
  enabled := host.enabled
  suffixByHash := host.suffixByHash

end HostSolvedNeighborhood

/- What the device is given of it. -/
structure SolvedNeighborhoodDeviceTable where
  slots : Slots Hash128 UInt32
  bucketMask : UInt32
  enabled : Bool

/- The mask of a table without buckets is zero. -/
def HostSolvedNeighborhood.deviceTable
    (host : HostSolvedNeighborhood) :
    SolvedNeighborhoodDeviceTable where
  slots := host.slots
  bucketMask :=
    if host.bucketCount = 0 then 0 else host.bucketCount - 1
  enabled := host.enabled

/- The question of the device: is the hash in the table. -/
def solvedNeighborhoodContains
    (table : SolvedNeighborhoodDeviceTable)
    (hash : Hash128) : Bool :=
  table.enabled &&
    contains (bucketScheme table.bucketMask) table.slots hash

/-
  The layers up to the radius, and a table in which all their
  hashes have a place.
-/
def buildSolvedNeighborhoodHost
    (puzzle : Puzzle)
    (zobrist : ZobristTable)
    (radius maxEntries : Nat)
    (fixedBucketCount : UInt32) :
    Except Exception HostSolvedNeighborhood :=
  if radius = 0 then .ok .disabled
  else if radius > 12 then
    .error
      (.runtimeError
        "BEAM_SOLVED_NEIGHBORHOOD_RADIUS must be <= 12")
  else do
    let layers ←
      searchLayers puzzle zobrist maxEntries radius
        (startLayers puzzle.layout zobrist puzzle.target)
    if fixedBucketCount ≠ 0 ∧
        fixedBucketCount &&& (fixedBucketCount - 1) ≠ 0 then
      .error
        (.runtimeError
          "fixed solved neighborhood bucket count must be a power of two")
    else do
      let bucketCount :=
        if fixedBucketCount = 0 then
          nextPowerOfTwo (max 1 layers.allNodes.length)
        else fixedBucketCount.toNat
      let packed ←
        packBuckets (layers.allNodes.map fun node => node.hash)
          (fixedBucketCount != 0) 33 bucketCount
      .ok
        { radius := radius
          bucketCount := packed.1
          entryCount := layers.allNodes.length
          slotCount :=
            packed.1.toNat * solvedNeighborhoodBucketSize.toNat
          slots := packed.2
          suffixByHash := layers.suffixByHash }

end Solve

end BeamSearch
