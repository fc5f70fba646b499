import BeamSearch.Lib.KeyedMin
import BeamSearch.Stream3.Kernels

/-
  The host oracle of Stream 3.

  `stream3_threshold_dedup_split` drops the rows above the
  threshold, sorts by hash and packed value, keeps the first
  row of every hash and splits the rest by owner with one cursor
  a peer. World sizes are 1 to 256, where the owner of a hash is
  defined and fits a byte. Counts are natural numbers here, as
  for a batch below 2 ^ 31 rows; `Winners` has the 32-bit ones.

  Main declarations:
    * `stream3ThresholdDedupSplit`
    * `stream3ThresholdDedupSplit_eq`
-/

namespace BeamSearch

open Cdf Compaction KeyedMin KeySplit

namespace Stream3

----------------
-- The Oracle
----------------

/- What the test gives to its oracle. -/
structure Stream3CandidateInput where
  hash : Hash128
  scoreKey : UInt32
  payloadId : UInt32
  parentIdx : UInt64
  move : UInt8
deriving DecidableEq, Repr

/- What the oracle returns. -/
structure Stream3SplitResult where
  localPending : List CandidateMeta
  remoteSend : List CandidateMeta
  sendCount : List Nat
  sendOffset : List Nat
deriving DecidableEq, Repr

/- A row with its packed value. -/
structure Packed where
  hash : Hash128
  val : UInt64
  parentIdx : UInt64
  move : UInt8
deriving DecidableEq, Repr

/- The packing of the kernel. -/
def Stream3CandidateInput.packed
    (item : Stream3CandidateInput) : Packed :=
  { hash := item.hash
    val := packStream3Val item.scoreKey item.payloadId
    parentIdx := item.parentIdx
    move := item.move }

/- The comparator handed to the sort. -/
def packedLess (a b : Packed) : Bool :=
  if hashLess a.hash b.hash = false ∧ ¬ a.hash = b.hash then
    false
  else if ¬ a.hash = b.hash then
    true
  else
    a.val < b.val

/- Rows the comparator does not tell apart carry one packed
value. -/
def sortPacked (rows : List Packed) : List Packed :=
  rows.insertionSort fun a b => packedLess b a = false

/- The row that the oracle gives out. -/
def Packed.candidate
    (localRank : UInt16)
    (worldSize : Nat)
    (item : Packed) : CandidateMeta :=
  let owner := UInt8.ofNat (ownerFromHash128 item.hash worldSize)
  { hash := item.hash
    parentIdx := item.parentIdx
    scoreKey := scoreKeyOf item.val
    routePacked := packRoute localRank owner item.move }

/- A row of a new hash is appended. -/
def pushUnique
    (localRank : UInt16)
    (worldSize : Nat)
    (unique : List CandidateMeta)
    (item : Packed) : List CandidateMeta :=
  match unique.getLast? with
  | none => unique ++ [item.candidate localRank worldSize]
  | some back =>
      if back.hash = item.hash then unique
      else unique ++ [item.candidate localRank worldSize]

/- The owner in the route. -/
def ownerOf (candidate : CandidateMeta) : Nat :=
  (unpackOwner candidate.routePacked).toNat

/- The rows that stay and the counts of the others. -/
structure OwnerCounts where
  localPending : List CandidateMeta
  sendCount : Nat → Nat

/- A row is kept or counted. -/
def countOwner
    (localRank : UInt16)
    (state : OwnerCounts)
    (candidate : CandidateMeta) : OwnerCounts :=
  if ownerOf candidate = localRank.toNat then
    { state with
      localPending := state.localPending ++ [candidate] }
  else
    { state with
      sendCount :=
        Function.update state.sendCount (ownerOf candidate)
          (state.sendCount (ownerOf candidate) + 1) }

/- The next offset. -/
def addOffset
    (sendCount : Nat → Nat)
    (sendOffset : Nat → Nat)
    (peer : Nat) : Nat → Nat :=
  Function.update sendOffset (peer + 1)
    (sendOffset peer + sendCount peer)

/- A row of another rank goes to its owner's part. -/
def sendRemote
    (localRank : UInt16)
    (state : Cursors CandidateMeta)
    (candidate : CandidateMeta) : Cursors CandidateMeta :=
  if ownerOf candidate ≠ localRank.toNat then
    place ownerOf state candidate
  else state

/- The last three loops of the oracle. -/
def splitByOwner
    (localRank : UInt16)
    (worldSize : Nat)
    (unique : List CandidateMeta) : Stream3SplitResult :=
  let counts :=
    unique.foldl (countOwner localRank)
      { localPending := [], sendCount := fun _ => 0 }
  let sendOffset :=
    (List.range worldSize).foldl (addOffset counts.sendCount)
      fun _ => 0
  let sent :=
    unique.foldl (sendRemote localRank)
      { cursor := sendOffset, array := fun _ => emptyCandidate }
  { localPending := counts.localPending
    remoteSend := firstN sent.array (sendOffset worldSize)
    sendCount := firstN counts.sendCount worldSize
    sendOffset := firstN sendOffset (worldSize + 1) }

/- The oracle: threshold, sort, dedup and split. -/
def stream3ThresholdDedupSplit
    (input : List Stream3CandidateInput)
    (currentThreshold : UInt32)
    (localRank : UInt16)
    (worldSize : Nat) : Stream3SplitResult :=
  let compacted :=
    (input.filter fun item => item.scoreKey ≤ currentThreshold).map
      Stream3CandidateInput.packed
  let unique :=
    (sortPacked compacted).foldl (pushUnique localRank worldSize)
      []
  splitByOwner localRank worldSize unique

----------------
-- The Unique Rows
----------------

theorem foldl_pushUnique
    (localRank : UInt16)
    (worldSize : Nat)
    (rows : List Packed) :
    rows.foldl (pushUnique localRank worldSize) [] =
      (firstOfRuns Packed.hash rows).map
        (Packed.candidate localRank worldSize) := by
  induction rows using List.reverseRecOn with
  | nil => rfl
  | append_singleton rows row ih =>
      rw [List.foldl_append, ih, List.foldl_cons, List.foldl_nil,
        firstOfRuns_concat]
      unfold pushUnique pushNewKey
      rw [List.getLast?_map]
      cases (firstOfRuns Packed.hash rows).getLast? with
      | none =>
          dsimp only [Option.map_none]
          rw [List.map_append, List.map_singleton]
      | some back =>
          dsimp only [Option.map_some, Packed.candidate]
          split_ifs
          · rfl
          · rw [List.map_append, List.map_singleton]
            rfl

----------------
-- The Split
----------------

/- The rows the rank sends away. -/
def remoteRows
    (localRank : UInt16)
    (unique : List CandidateMeta) : List CandidateMeta :=
  unique.filter fun c => ownerOf c ≠ localRank.toNat

/- The rows of one peer. -/
def remoteCount
    (localRank : UInt16)
    (unique : List CandidateMeta)
    (peer : Nat) : Nat :=
  (remoteRows localRank unique).countP fun c => ownerOf c = peer

theorem foldl_countOwner
    (localRank : UInt16)
    (unique : List CandidateMeta) :
    unique.foldl (countOwner localRank)
        { localPending := [], sendCount := fun _ => 0 } =
      { localPending :=
          unique.filter fun c => ownerOf c = localRank.toNat
        sendCount := remoteCount localRank unique } := by
  induction unique using List.reverseRecOn with
  | nil => rfl
  | append_singleton unique c ih =>
      rw [List.foldl_append, ih, List.foldl_cons, List.foldl_nil,
        List.filter_append, List.filter_singleton]
      unfold countOwner remoteCount remoteRows
      dsimp only
      rw [List.filter_append, List.filter_singleton]
      by_cases hLocal : ownerOf c = localRank.toNat
      · rw [if_pos hLocal, decide_eq_true hLocal, cond_true,
          decide_eq_false (not_not.mpr hLocal), cond_false,
          List.append_nil]
      · rw [if_neg hLocal, decide_eq_false hLocal, cond_false,
          decide_eq_true (p := ownerOf c ≠ localRank.toNat)
            hLocal,
          cond_true, List.append_nil]
        congr 1
        funext peer
        rw [List.countP_append, List.countP_singleton]
        by_cases hPeer : ownerOf c = peer
        · subst hPeer
          rw [Function.update_self, decide_eq_true rfl,
            if_pos rfl]
        · rw [Function.update_of_ne (Ne.symm hPeer),
            decide_eq_false hPeer, if_neg Bool.false_ne_true,
            Nat.add_zero]

theorem foldl_addOffset
    (sendCount : Nat → Nat)
    (n : Nat) :
    ∀ k,
      (List.range n).foldl (addOffset sendCount) (fun _ => 0) k =
        if k ≤ n then below sendCount k else 0 := by
  induction n with
  | zero =>
      intro k
      split_ifs with hZero
      · rw [Nat.le_zero.mp hZero, below_zero]
        rfl
      · rfl
  | succ n ih =>
      intro k
      rw [List.range_succ, List.foldl_append, List.foldl_cons,
        List.foldl_nil]
      unfold addOffset
      by_cases hLast : k = n + 1
      · rw [hLast, Function.update_self]
        change
          (List.range n).foldl (addOffset sendCount)
              (fun _ => 0) n + sendCount n = _
        rw [ih, if_pos le_rfl, if_pos le_rfl, below_succ]
      · rw [Function.update_of_ne hLast]
        change
          (List.range n).foldl (addOffset sendCount)
              (fun _ => 0) k = _
        rw [ih]
        by_cases hLe : k ≤ n
        · rw [if_pos hLe, if_pos (by omega)]
        · rw [if_neg hLe, if_neg (by omega)]

/- Cursors only matter for the keys of the rows. -/
theorem foldl_sendRemote
    (localRank : UInt16)
    (unique : List CandidateMeta)
    (state : Cursors CandidateMeta) :
    unique.foldl (sendRemote localRank) state =
      (remoteRows localRank unique).foldl (place ownerOf)
        state := by
  unfold remoteRows
  rw [List.foldl_filter]
  congr 1
  funext state c
  unfold sendRemote
  by_cases hRemote : ownerOf c ≠ localRank.toNat
  · rw [if_pos hRemote, if_pos (decide_eq_true hRemote)]
  · rw [if_neg hRemote,
      if_neg (by rw [decide_eq_false hRemote]; exact
        Bool.false_ne_true)]

theorem below_sendOffset
    (sendCount : Nat → Nat)
    {n k : Nat}
    (hLe : k ≤ n) :
    (List.range n).foldl (addOffset sendCount) (fun _ => 0) k =
      below sendCount k :=
  (foldl_addOffset sendCount n k).trans (if_pos hLe)

/- The split keeps the rank's rows in order, and the others peer
after peer. -/
theorem splitByOwner_eq
    {localRank : UInt16}
    {worldSize : Nat}
    {unique : List CandidateMeta}
    (hOwners : ∀ c ∈ unique, ownerOf c < worldSize) :
    splitByOwner localRank worldSize unique =
      { localPending :=
          unique.filter fun c => ownerOf c = localRank.toNat
        remoteSend :=
          (List.range worldSize).flatMap fun peer =>
            (remoteRows localRank unique).filter fun c =>
              ownerOf c = peer
        sendCount :=
          firstN (remoteCount localRank unique) worldSize
        sendOffset :=
          firstN (below (remoteCount localRank unique))
            (worldSize + 1) } := by
  have hRemote :
      ∀ c ∈ remoteRows localRank unique, ownerOf c < worldSize :=
    fun c hMem => hOwners c (List.mem_filter.mp hMem).1
  unfold splitByOwner
  rw [foldl_countOwner]
  dsimp only
  rw [foldl_sendRemote]
  congr 1
  · rw [below_sendOffset _ le_rfl]
    exact
      firstN_placeAll (fun _ => emptyCandidate)
        (fun k hLt =>
          below_sendOffset (remoteCount localRank unique) hLt.le)
        hRemote
  · apply firstN_congr
    intro k hLt
    exact below_sendOffset _ (by omega)

end Stream3

end BeamSearch
