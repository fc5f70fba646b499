import BeamSearch.Lib.Exchange
import BeamSearch.Stream3.Pass

/-
  The host oracle as a partition of the winners.

  For every hash within the threshold the row of the least score
  and payload is kept, once: here if this rank owns the hash,
  else in the slice of its owner. Counts, offsets and cursors
  have 32 bits, so the rows sent away must be fewer than 2 ^ 32.

  Main declarations:
    * `thresholdDedupSplit32`
    * `IsLeastOfHash`, `Partitions`
    * `thresholdDedupSplit32_partitions`
-/

namespace BeamSearch

open Cdf Compaction Exchange KeyedMin KeySplit

namespace Stream3

variable {localRank : UInt16} {worldSize : Nat} {unique : List CandidateMeta}
    {input : List Stream3CandidateInput}

----------------
-- Counters of 32 Bits
----------------

/- The count of an owner, as a 32-bit word. -/
def countOwner32
    (localRank : UInt16)
    (state : OwnerCounts)
    (candidate : CandidateMeta) : OwnerCounts :=
  if ownerOf candidate = localRank.toNat then
    { state with
      localPending := state.localPending ++ [candidate] }
  else
    { state with
      sendCount :=
        Function.update state.sendCount (ownerOf candidate)
          ((state.sendCount (ownerOf candidate) + 1) % 2 ^ 32) }

/- The next offset, as a 32-bit word. -/
def addOffset32
    (sendCount : Nat → Nat)
    (sendOffset : Nat → Nat)
    (peer : Nat) : Nat → Nat :=
  Function.update sendOffset (peer + 1)
    ((sendOffset peer + sendCount peer) % 2 ^ 32)

/- `none` for a write past the end of the array. -/
def sendRemote32
    (localRank : UInt16)
    (size : Nat)
    (state : Cursors CandidateMeta)
    (candidate : CandidateMeta) : Option (Cursors CandidateMeta) :=
  let owner := ownerOf candidate
  if owner ≠ localRank.toNat then
    if state.cursor owner < size then
      some
        { cursor :=
            Function.update state.cursor owner
              ((state.cursor owner + 1) % 2 ^ 32)
          array :=
            Function.update state.array (state.cursor owner)
              candidate }
    else none
  else some state

/- The last three loops of the oracle, as the source counts. -/
def splitByOwner32
    (localRank : UInt16)
    (worldSize : Nat)
    (unique : List CandidateMeta) : Option Stream3SplitResult :=
  let counts :=
    unique.foldl (countOwner32 localRank)
      { localPending := [], sendCount := fun _ => 0 }
  let sendOffset :=
    (List.range worldSize).foldl (addOffset32 counts.sendCount)
      fun _ => 0
  do
    let sent ←
      unique.foldlM (sendRemote32 localRank (sendOffset worldSize))
        { cursor := sendOffset, array := fun _ => emptyCandidate }
    some
      { localPending := counts.localPending
        remoteSend := firstN sent.array (sendOffset worldSize)
        sendCount := firstN counts.sendCount worldSize
        sendOffset := firstN sendOffset (worldSize + 1) }

/- The rows the oracle keeps. -/
def uniqueOf
    (input : List Stream3CandidateInput)
    (currentThreshold : UInt32)
    (localRank : UInt16)
    (worldSize : Nat) : List CandidateMeta :=
  let compacted :=
    (input.filter fun item => item.scoreKey ≤ currentThreshold).map
      Stream3CandidateInput.packed
  (sortPacked compacted).foldl (pushUnique localRank worldSize) []

/- The oracle with the words that it computes in. -/
def thresholdDedupSplit32
    (input : List Stream3CandidateInput)
    (currentThreshold : UInt32)
    (localRank : UInt16)
    (worldSize : Nat) : Option Stream3SplitResult :=
  splitByOwner32 localRank worldSize
    (uniqueOf input currentThreshold localRank worldSize)

----------------
-- Counters That Do Not Wrap
----------------

theorem add_mod_word (a b : Nat) :
    (a % 2 ^ 32 + b % 2 ^ 32) % 2 ^ 32 = (a + b) % 2 ^ 32 :=
  (Nat.add_mod a b _).symm

/- The counts are those of the natural numbers, modulo a word. -/
theorem foldl_countOwner32
    (localRank : UInt16)
    (unique : List CandidateMeta) :
    unique.foldl (countOwner32 localRank)
        { localPending := [], sendCount := fun _ => 0 } =
      { localPending :=
          unique.filter fun c => ownerOf c = localRank.toNat
        sendCount := fun peer =>
          remoteCount localRank unique peer % 2 ^ 32 } := by
  have hHom :
      ∀ state,
        unique.foldl (countOwner32 localRank)
            { localPending := state.localPending
              sendCount := fun peer =>
                state.sendCount peer % 2 ^ 32 } =
          { localPending :=
              (unique.foldl (countOwner localRank)
                state).localPending
            sendCount := fun peer =>
              (unique.foldl (countOwner localRank)
                state).sendCount peer % 2 ^ 32 } := by
    induction unique with
    | nil => exact fun state => rfl
    | cons c unique ih =>
        intro state
        rw [List.foldl_cons, List.foldl_cons, ← ih]
        congr 1
        unfold countOwner32 countOwner
        split_ifs with hLocal
        · rfl
        · dsimp only
          congr 1
          funext peer
          by_cases hPeer : peer = ownerOf c
          · rw [hPeer, Function.update_self, Function.update_self,
              Nat.mod_add_mod]
          · rw [Function.update_of_ne hPeer,
              Function.update_of_ne hPeer]
  have hStart := hHom { localPending := [], sendCount := fun _ => 0 }
  rw [foldl_countOwner] at hStart
  exact hStart

theorem foldl_addOffset32
    (sendCount : Nat → Nat)
    (n : Nat)
    {k : Nat}
    (hLe : k ≤ n) :
    (List.range n).foldl
        (addOffset32 fun peer => sendCount peer % 2 ^ 32)
        (fun _ => 0) k =
      below sendCount k % 2 ^ 32 := by
  induction n generalizing k with
  | zero =>
      rw [Nat.le_zero.mp hLe, below_zero]
      rfl
  | succ n ih =>
      rw [List.range_succ, List.foldl_append, List.foldl_cons,
        List.foldl_nil]
      unfold addOffset32
      by_cases hLast : k = n + 1
      · rw [hLast, Function.update_self]
        have hHere := ih le_rfl
        unfold addOffset32 at hHere
        rw [hHere, add_mod_word, below_succ]
      · rw [Function.update_of_ne hLast]
        exact ih (by omega)

theorem remoteRows_append
    (localRank : UInt16)
    (a b : List CandidateMeta) :
    remoteRows localRank (a ++ b) =
      remoteRows localRank a ++ remoteRows localRank b :=
  List.filter_append ..

theorem remoteCount_append
    (localRank : UInt16)
    (a b : List CandidateMeta)
    (peer : Nat) :
    remoteCount localRank (a ++ b) peer =
      remoteCount localRank a peer +
        remoteCount localRank b peer := by
  rw [remoteCount, remoteRows_append, List.countP_append]
  rfl

theorem remoteCount_le
    (localRank : UInt16)
    (unique : List CandidateMeta)
    (peer : Nat) :
    remoteCount localRank unique peer ≤
      (remoteRows localRank unique).length :=
  List.countP_le_length

theorem below_remoteCount
    (localRank : UInt16)
    (unique : List CandidateMeta)
    (n : Nat) :
    below (remoteCount localRank unique) n =
      (remoteRows localRank unique).countP
        fun c => ownerOf c < n :=
  below_countP ownerOf (remoteRows localRank unique) n

/- All rows sent away belong to some peer. -/
theorem below_remoteCount_world
    (hOwners : ∀ c ∈ unique, ownerOf c < worldSize) :
    below (remoteCount localRank unique) worldSize =
      (remoteRows localRank unique).length := by
  rw [below_remoteCount, List.countP_eq_length]
  intro c hMem
  exact decide_eq_true (hOwners c (List.mem_filter.mp hMem).1)

/- The cursors stay below the size, and below the word. -/
theorem foldlM_sendRemote32
    (hOwners : ∀ c ∈ unique, ownerOf c < worldSize)
    (hFits : (remoteRows localRank unique).length < 2 ^ 32)
    {offset : Nat → Nat}
    (hOffset :
      ∀ k < worldSize,
        offset k = below (remoteCount localRank unique) k)
    (array : Nat → CandidateMeta)
    {rows rest : List CandidateMeta}
    (hSplit : unique = rows ++ rest) :
    rows.foldlM
        (sendRemote32 localRank
          (remoteRows localRank unique).length)
        { cursor := offset, array := array } =
      some
        (placeAll ownerOf offset array
          (remoteRows localRank rows)) := by
  induction rows using List.reverseRecOn generalizing rest with
  | nil => rfl
  | append_singleton rows c ih =>
      have hPrefix : unique = rows ++ ([c] ++ rest) := by
        rw [hSplit, List.append_assoc]
      rw [List.foldlM_append, ih hPrefix, Option.bind_eq_bind,
        Option.bind_some, List.foldlM_cons, remoteRows_append]
      refine (bind_pure _).trans ?_
      unfold sendRemote32
      dsimp only
      by_cases hRemote : ownerOf c ≠ localRank.toNat
      · have hLast : remoteRows localRank [c] = [c] :=
          List.filter_cons_of_pos (decide_eq_true hRemote)
        have hOwner : ownerOf c < worldSize := by
          refine hOwners c ?_
          rw [hSplit]
          simp
        have hRoom :
            ∀ k,
              ((remoteRows localRank rows).countP
                  fun c => ownerOf c = k) ≤
                remoteCount localRank unique k := by
          intro k
          rw [hPrefix, remoteCount_append]
          exact Nat.le_add_right _ _
        have hHere :
            remoteCount localRank rows (ownerOf c) + 1 ≤
              remoteCount localRank unique (ownerOf c) := by
          rw [hSplit, remoteCount_append, remoteCount_append]
          have hOne :
              remoteCount localRank [c] (ownerOf c) = 1 := by
            rw [remoteCount, hLast, List.countP_singleton,
              decide_eq_true rfl, if_pos rfl]
          omega
        have hKeys :
            ∀ row ∈ remoteRows localRank rows,
              ownerOf row < worldSize := by
          intro row hMem
          refine hOwners row ?_
          rw [hPrefix]
          exact
            List.mem_append_left _ (List.mem_filter.mp hMem).1
        have hCursor :
            (placeAll ownerOf offset array
                (remoteRows localRank rows)).cursor (ownerOf c) =
              below (remoteCount localRank unique) (ownerOf c) +
                remoteCount localRank rows (ownerOf c) :=
          (placeAll_spec array hOffset hKeys hRoom _ hOwner).1
        have hBelow :=
          below_add_le (remoteCount localRank unique) hOwner
        rw [below_remoteCount_world hOwners] at hBelow
        have hIn :
            (placeAll ownerOf offset array
                (remoteRows localRank rows)).cursor (ownerOf c) <
              (remoteRows localRank unique).length := by
          rw [hCursor]
          omega
        rw [if_pos hRemote, if_pos hIn, Nat.mod_eq_of_lt (by omega),
          hLast]
        unfold placeAll
        rw [List.foldl_append]
        rfl
      · have hLast : remoteRows localRank [c] = [] :=
          List.filter_cons_of_neg
            (by rw [decide_eq_false hRemote]; exact nofun)
        rw [if_neg hRemote, hLast, List.append_nil]

/- While fewer than 2 ^ 32 rows are sent away nothing wraps. -/
theorem splitByOwner32_eq
    (hOwners : ∀ c ∈ unique, ownerOf c < worldSize)
    (hFits : (remoteRows localRank unique).length < 2 ^ 32) :
    splitByOwner32 localRank worldSize unique =
      some (splitByOwner localRank worldSize unique) := by
  have hCounts :
      (fun peer => remoteCount localRank unique peer % 2 ^ 32) =
        remoteCount localRank unique := by
    funext peer
    have hLe := remoteCount_le localRank unique peer
    exact Nat.mod_eq_of_lt (by omega)
  have hOffset :
      ∀ k ≤ worldSize,
        (List.range worldSize).foldl
            (addOffset32 (remoteCount localRank unique))
            (fun _ => 0) k =
          below (remoteCount localRank unique) k := by
    intro k hLe
    have hRun :=
      foldl_addOffset32 (remoteCount localRank unique) worldSize
        hLe
    have hMono :=
      below_mono (remoteCount localRank unique) hLe
    rw [below_remoteCount_world hOwners] at hMono
    rw [hCounts, Nat.mod_eq_of_lt (by omega)] at hRun
    exact hRun
  have hTotal := hOffset worldSize le_rfl
  rw [below_remoteCount_world hOwners] at hTotal
  have hSent :=
    foldlM_sendRemote32 hOwners hFits
      (fun k hLt => hOffset k hLt.le) (fun _ => emptyCandidate)
      (List.append_nil unique).symm
  have hRemote :
      ∀ c ∈ remoteRows localRank unique, ownerOf c < worldSize :=
    fun c hMem => hOwners c (List.mem_filter.mp hMem).1
  unfold splitByOwner32
  rw [foldl_countOwner32, hCounts]
  dsimp only
  rw [hTotal, hSent, splitByOwner_eq hOwners]
  dsimp only [Option.bind_eq_bind, Option.bind_some]
  congr 2
  · rw [← below_remoteCount_world hOwners]
    exact
      firstN_placeAll (fun _ => emptyCandidate)
        (fun k hLt => hOffset k hLt.le) hRemote
  · apply firstN_congr
    intro k hLt
    exact hOffset k (by omega)

----------------
-- The Least Row of a Hash
----------------

/- Within the threshold, of the least score and then payload. -/
structure IsLeastOfHash
    (input : List Stream3CandidateInput)
    (threshold : UInt32)
    (item : Stream3CandidateInput) : Prop where
  mem : item ∈ input
  within : item.scoreKey ≤ threshold
  least :
    ∀ other ∈ input, other.scoreKey ≤ threshold →
      other.hash = item.hash →
        item.scoreKey < other.scoreKey ∨
          (item.scoreKey = other.scoreKey ∧
            item.payloadId ≤ other.payloadId)

/- The record of an input row. -/
def Stream3CandidateInput.record
    (localRank : UInt16)
    (worldSize : Nat)
    (item : Stream3CandidateInput) : CandidateMeta :=
  { hash := item.hash
    parentIdx := item.parentIdx
    scoreKey := item.scoreKey
    routePacked :=
      packRoute localRank
        (UInt8.ofNat (ownerFromHash128 item.hash worldSize))
        item.move }

theorem candidate_packed
    (localRank : UInt16)
    (worldSize : Nat)
    (item : Stream3CandidateInput) :
    item.packed.candidate localRank worldSize =
      item.record localRank worldSize := by
  unfold Packed.candidate Stream3CandidateInput.packed
  dsimp only
  rw [scoreKeyOf_packStream3Val]
  rfl

theorem ownerOf_record
    (localRank : UInt16)
    (hWorld : 0 < worldSize)
    (hByte : worldSize ≤ 256)
    (item : Stream3CandidateInput) :
    ownerOf (item.record localRank worldSize) =
      ownerFromHash128 item.hash worldSize := by
  have hLt : ownerFromHash128 item.hash worldSize < worldSize :=
    Nat.mod_lt _ hWorld
  unfold ownerOf Stream3CandidateInput.record
  dsimp only
  rw [unpackOwner_packRoute]
  exact UInt8.toNat_ofNat_of_lt (hLt.trans_le hByte)

/- The score and the payload as one number. -/
def rankOf (item : Stream3CandidateInput) : Nat :=
  item.packed.val.toNat

theorem rankOf_eq (item : Stream3CandidateInput) :
    rankOf item =
      item.scoreKey.toNat * 2 ^ 32 + item.payloadId.toNat :=
  toNat_packStream3Val ..

theorem rankOf_le_iff (a b : Stream3CandidateInput) :
    rankOf a ≤ rankOf b ↔
      a.scoreKey < b.scoreKey ∨
        (a.scoreKey = b.scoreKey ∧ a.payloadId ≤ b.payloadId) := by
  have hA := a.payloadId.toNat_lt
  have hB := b.payloadId.toNat_lt
  rw [rankOf_eq, rankOf_eq, UInt32.lt_iff_toNat_lt,
    UInt32.le_iff_toNat_le, ← UInt32.toNat_inj]
  omega

/- The rows within the threshold, sorted as the oracle sorts. -/
def sortedInput
    (input : List Stream3CandidateInput)
    (threshold : UInt32) : List Stream3CandidateInput :=
  (input.filter fun item => item.scoreKey ≤ threshold).insertionSort
    fun a b => packedLess b.packed a.packed = false

/- The least rows, by increasing hash. -/
def leastRows
    (input : List Stream3CandidateInput)
    (threshold : UInt32) : List Stream3CandidateInput :=
  firstOfRuns Stream3CandidateInput.hash
    (sortedInput input threshold)

theorem uniqueOf_eq
    (input : List Stream3CandidateInput)
    (threshold : UInt32)
    (localRank : UInt16)
    (worldSize : Nat) :
    uniqueOf input threshold localRank worldSize =
      (leastRows input threshold).map
        (Stream3CandidateInput.record localRank worldSize) := by
  have hSort :
      sortPacked
          ((input.filter fun item =>
            item.scoreKey ≤ threshold).map
            Stream3CandidateInput.packed) =
        (sortedInput input threshold).map
          Stream3CandidateInput.packed :=
    (List.map_insertionSort
      (fun a b : Stream3CandidateInput =>
        packedLess b.packed a.packed = false)
      (fun a b => packedLess b a = false)
      Stream3CandidateInput.packed _
      fun _ _ _ _ => Iff.rfl).symm
  unfold uniqueOf
  dsimp only
  rw [hSort, foldl_pushUnique, firstOfRuns_map, List.map_map]
  apply List.map_congr_left
  intro item _
  exact candidate_packed localRank worldSize item

/- The comparator orders by hash, and then by score and payload. -/
theorem not_packedLess_packed_iff
    (a b : Stream3CandidateInput) :
    packedLess b.packed a.packed = false ↔
      a.hash < b.hash ∨ (a.hash = b.hash ∧ rankOf a ≤ rankOf b) :=
  not_packedLess_iff a.packed b.packed

theorem sortedInput_pairwise
    (input : List Stream3CandidateInput)
    (threshold : UInt32) :
    (sortedInput input threshold).Pairwise fun a b =>
      a.hash < b.hash ∨
        (a.hash = b.hash ∧ rankOf a ≤ rankOf b) := by
  have hTotal :
      Std.Total fun a b : Stream3CandidateInput =>
        packedLess b.packed a.packed = false :=
    ⟨fun a b => by
      rw [not_packedLess_packed_iff, not_packedLess_packed_iff]
      rcases lt_trichotomy a.hash b.hash with hLt | hEq | hGt
      · exact Or.inl (Or.inl hLt)
      · rcases Nat.le_total (rankOf a) (rankOf b) with hLe | hGe
        · exact Or.inl (Or.inr ⟨hEq, hLe⟩)
        · exact Or.inr (Or.inr ⟨hEq.symm, hGe⟩)
      · exact Or.inr (Or.inl hGt)⟩
  have hTrans :
      IsTrans Stream3CandidateInput fun a b =>
        packedLess b.packed a.packed = false :=
    ⟨fun a b c hFirst hSecond => by
      rw [not_packedLess_packed_iff] at hFirst hSecond ⊢
      rcases hFirst with hAb | ⟨hAb, hLeAb⟩
      · rcases hSecond with hBc | ⟨hBc, -⟩
        · exact Or.inl (hAb.trans hBc)
        · exact Or.inl (hBc ▸ hAb)
      · rcases hSecond with hBc | ⟨hBc, hLeBc⟩
        · exact Or.inl (hAb ▸ hBc)
        · exact Or.inr ⟨hAb.trans hBc, hLeAb.trans hLeBc⟩⟩
  unfold sortedInput
  exact
    (List.pairwise_insertionSort
      (fun a b : Stream3CandidateInput =>
        packedLess b.packed a.packed = false) _).imp
      fun hSorted => (not_packedLess_packed_iff _ _).mp hSorted

theorem leastRows_pairwise
    (input : List Stream3CandidateInput)
    (threshold : UInt32) :
    (leastRows input threshold).Pairwise
      fun a b => a.hash < b.hash :=
  firstOfRuns_pairwise
    ((sortedInput_pairwise input threshold).imp fun hBoth => by
      rcases hBoth with hLt | ⟨hEq, -⟩
      · exact hLt.le
      · exact hEq.le)

theorem mem_sortedInput
    {threshold : UInt32}
    {item : Stream3CandidateInput} :
    item ∈ sortedInput input threshold ↔
      item ∈ input ∧ item.scoreKey ≤ threshold := by
  rw [sortedInput, List.mem_insertionSort, List.mem_filter,
    decide_eq_true_eq]

/- No row within the threshold goes without its least row. -/
theorem leastRows_reduces
    (input : List Stream3CandidateInput)
    (threshold : UInt32) :
    Reduces Stream3CandidateInput.hash rankOf (fun _ => True)
      (leastRows input threshold)
      (sortedInput input threshold) := by
  refine firstOfRuns_reduces ?_
  refine (sortedInput_pairwise input threshold).imp ?_
  rintro a b (hLt | ⟨-, hLe⟩) hEq
  · exact absurd hEq hLt.ne
  · exact hLe

/- Rows with distinct payloads are kept where they are the least. -/
theorem mem_leastRows_iff
    (hPayloads :
      (input.map Stream3CandidateInput.payloadId).Nodup)
    (threshold : UInt32)
    (item : Stream3CandidateInput) :
    item ∈ leastRows input threshold ↔
      IsLeastOfHash input threshold item := by
  have hReduces := leastRows_reduces input threshold
  constructor
  · intro hMem
    rcases mem_sortedInput.mp (hReduces.subset hMem) with
      ⟨hInput, hWithin⟩
    refine ⟨hInput, hWithin, fun other hOther hLe hHash => ?_⟩
    rcases
      hReduces.cover other (mem_sortedInput.mpr ⟨hOther, hLe⟩)
        trivial with
      ⟨kept, hKept, hKey, hRank⟩
    have hSame : kept = item :=
      eq_of_key_eq_of_pairwise (leastRows_pairwise input threshold)
        hKept hMem (hKey.trans hHash)
    rw [hSame] at hRank
    exact (rankOf_le_iff item other).mp hRank
  · rintro ⟨hInput, hWithin, hLeast⟩
    rcases
      hReduces.cover item (mem_sortedInput.mpr ⟨hInput, hWithin⟩)
        trivial with
      ⟨kept, hKept, hKey, hRank⟩
    rcases mem_sortedInput.mp (hReduces.subset hKept) with
      ⟨hKeptInput, hKeptWithin⟩
    have hBack :=
      (rankOf_le_iff item kept).mpr
        (hLeast kept hKeptInput hKeptWithin hKey)
    have hRanks := le_antisymm hRank hBack
    rw [rankOf_eq, rankOf_eq] at hRanks
    have hKeptFits := kept.payloadId.toNat_lt
    have hItemFits := item.payloadId.toNat_lt
    have hPayload : kept.payloadId = item.payloadId :=
      UInt32.toNat_inj.mp (by omega)
    have hSame : kept = item :=
      List.inj_on_of_nodup_map hPayloads hKeptInput hInput hPayload
    exact hSame ▸ hKept

----------------
-- Parts of a List
----------------

section Parts

variable {α : Type}
variable (key : α → Nat)
variable (rows : List α)

/- The rows of each key below a bound, key after key. -/
def parts (n : Nat) : List α :=
  (List.range n).flatMap fun k =>
    rows.filter fun row => key row = k

theorem parts_pairwise (n : Nat) :
    (parts key rows n).Pairwise fun a b => key a ≤ key b := by
  rw [parts, List.pairwise_flatMap]
  constructor
  · intro k _
    refine List.pairwise_iff_forall_sublist.mpr ?_
    intro a b hPair
    have hA := hPair.subset List.mem_cons_self
    have hB :=
      hPair.subset (List.mem_cons_of_mem _ List.mem_cons_self)
    have hKeyA := (List.mem_filter.mp hA).2
    have hKeyB := (List.mem_filter.mp hB).2
    rw [decide_eq_true_eq] at hKeyA hKeyB
    rw [hKeyA, hKeyB]
  · refine List.pairwise_lt_range.imp ?_
    intro k l hLt a hA b hB
    have hKeyA := (List.mem_filter.mp hA).2
    have hKeyB := (List.mem_filter.mp hB).2
    rw [decide_eq_true_eq] at hKeyA hKeyB
    rw [hKeyA, hKeyB]
    exact hLt.le

theorem filter_parts
    {n k : Nat}
    (hLt : k < n) :
    ((parts key rows n).filter fun row => key row = k) =
      rows.filter fun row => key row = k := by
  induction n with
  | zero => exact absurd hLt (Nat.not_lt_zero k)
  | succ n ih =>
      have hSucc :
          parts key rows (n + 1) =
            parts key rows n ++
              rows.filter fun row => key row = n := by
        rw [parts, List.range_succ, List.flatMap_append,
          List.flatMap_singleton]
        rfl
      rw [hSucc, List.filter_append]
      by_cases hLast : k = n
      · have hBelow :
            ((parts key rows n).filter fun row => key row = k) =
              [] := by
          refine List.filter_eq_nil_iff.mpr ?_
          intro row hMem
          rcases List.mem_flatMap.mp hMem with ⟨l, hL, hRow⟩
          have hLess := List.mem_range.mp hL
          have hKey := (List.mem_filter.mp hRow).2
          rw [decide_eq_true_eq] at hKey ⊢
          omega
        rw [hBelow, hLast, List.nil_append, List.filter_filter]
        simp only [Bool.and_self]
      · have hOther :
            ((rows.filter fun row => key row = n).filter
              fun row => key row = k) = [] := by
          refine List.filter_eq_nil_iff.mpr ?_
          intro row hMem
          have hKey := (List.mem_filter.mp hMem).2
          rw [decide_eq_true_eq] at hKey ⊢
          omega
        rw [hOther, List.append_nil]
        exact ih (by omega)

theorem countP_parts
    {n k : Nat}
    (hLt : k < n) :
    ((parts key rows n).countP fun row => key row = k) =
      rows.countP fun row => key row = k := by
  rw [List.countP_eq_length_filter, filter_parts key rows hLt,
    ← List.countP_eq_length_filter]

/- A part is found behind the parts of the smaller keys. -/
theorem slice_parts
    {n k : Nat}
    (hLt : k < n) :
    ((parts key rows n).drop
        (below (fun l => rows.countP fun row => key row = l)
          k)).take
        (rows.countP fun row => key row = k) =
      rows.filter fun row => key row = k := by
  have hBelow :
      below (fun l => rows.countP fun row => key row = l) k =
        (parts key rows n).countP fun row => key row < k := by
    rw [← below_countP key (parts key rows n) k]
    refine Finset.sum_congr rfl fun l hL => ?_
    exact
      (countP_parts key rows
        ((Finset.mem_range.mp hL).trans hLt)).symm
  rw [hBelow, ← countP_parts key rows hLt,
    drop_take_eq_filter (parts_pairwise key rows n) k,
    filter_parts key rows hLt]

end Parts

----------------
-- The Partition
----------------

/- The rows of the buffer between two offsets. -/
def slice
    (result : Stream3SplitResult)
    (peer : Nat) : List CandidateMeta :=
  (result.remoteSend.drop (result.sendOffset.getD peer 0)).take
    (result.sendOffset.getD (peer + 1) 0 -
      result.sendOffset.getD peer 0)

/- Every least row once, here or in the slice of its owner. -/
structure Partitions
    (input : List Stream3CandidateInput)
    (threshold : UInt32)
    (localRank : UInt16)
    (worldSize : Nat)
    (result : Stream3SplitResult) : Prop where
  records :
    ∀ c, c ∈ result.localPending ++ result.remoteSend ↔
      ∃ item, IsLeastOfHash input threshold item ∧
        c = item.record localRank worldSize
  covers :
    ∀ item ∈ input, item.scoreKey ≤ threshold →
      ∃ c ∈ result.localPending ++ result.remoteSend,
        c.hash = item.hash
  once :
    ((result.localPending ++ result.remoteSend).map
      CandidateMeta.hash).Nodup
  owned :
    ∀ c ∈ result.localPending ++ result.remoteSend,
      c ∈ result.localPending ↔
        ownerFromHash128 c.hash worldSize = localRank.toNat
  counts : result.sendCount.length = worldSize
  offsets :
    result.sendOffset.length = worldSize + 1 ∧
      result.sendOffset.getD 0 0 = 0 ∧
      result.sendOffset.getD worldSize 0 =
        result.remoteSend.length
  slices :
    ∀ peer < worldSize,
      (slice result peer).length =
          result.sendCount.getD peer 0 ∧
        (slice result peer).Pairwise (fun a b => a.hash < b.hash) ∧
        ∀ c, c ∈ slice result peer ↔
          c ∈ result.remoteSend ∧
            ownerFromHash128 c.hash worldSize = peer
  own : slice result localRank.toNat = []

theorem getD_firstN
    (arr : Nat → Nat)
    {n k : Nat}
    (hLt : k < n) :
    (firstN arr n).getD k 0 = arr k := by
  rw [List.getD_eq_getElem?_getD, getElem?_firstN arr hLt,
    Option.getD_some]

/- The rows sent away, of fewer than 2 ^ 32. -/
def remoteWinners
    (input : List Stream3CandidateInput)
    (threshold : UInt32)
    (localRank : UInt16)
    (worldSize : Nat) : List CandidateMeta :=
  remoteRows localRank
    (uniqueOf input threshold localRank worldSize)

section Kept

theorem mem_localPending
    (hOwners : ∀ c ∈ unique, ownerOf c < worldSize)
    (c : CandidateMeta) :
    c ∈ (splitByOwner localRank worldSize unique).localPending ↔
      c ∈ unique ∧ ownerOf c = localRank.toNat := by
  rw [splitByOwner_eq hOwners]
  dsimp only
  rw [List.mem_filter, decide_eq_true_eq]

theorem remoteSend_perm
    (hOwners : ∀ c ∈ unique, ownerOf c < worldSize) :
    (splitByOwner localRank worldSize unique).remoteSend.Perm
      (remoteRows localRank unique) := by
  have hAll :
      ((remoteRows localRank unique).filter
        fun c => ownerOf c < worldSize) =
        remoteRows localRank unique := by
    refine List.filter_eq_self.mpr fun c hMem => ?_
    exact decide_eq_true (hOwners c (List.mem_filter.mp hMem).1)
  have hSent :=
    flatMap_filter_perm ownerOf (remoteRows localRank unique)
      worldSize
  rw [hAll] at hSent
  rw [splitByOwner_eq hOwners]
  exact hSent

/- The two lists hold the unique rows. -/
theorem splitByOwner_perm
    (hOwners : ∀ c ∈ unique, ownerOf c < worldSize) :
    ((splitByOwner localRank worldSize unique).localPending ++
        (splitByOwner localRank worldSize unique).remoteSend).Perm
      unique := by
  refine ((remoteSend_perm hOwners).append_left _).trans ?_
  have hSplit :=
    List.filter_append_perm
      (fun c => decide (ownerOf c = localRank.toNat)) unique
  rw [splitByOwner_eq hOwners]
  simp only [remoteRows, ne_eq, decide_not]
  exact hSplit

/- A slice of the buffer is the part of its peer. -/
theorem slice_splitByOwner
    (hOwners : ∀ c ∈ unique, ownerOf c < worldSize)
    {peer : Nat}
    (hPeer : peer < worldSize) :
    slice (splitByOwner localRank worldSize unique) peer =
      (remoteRows localRank unique).filter
        fun c => ownerOf c = peer := by
  rw [splitByOwner_eq hOwners, slice]
  dsimp only
  rw [getD_firstN _ (by omega), getD_firstN _ (by omega),
    below_succ, Nat.add_sub_cancel_left]
  exact slice_parts ownerOf (remoteRows localRank unique) hPeer

end Kept

/-
  The oracle partitions the least rows: each once, in the rank's
  own list or in the slice of its owner, by increasing hash.
-/
theorem thresholdDedupSplit32_partitions
    {input : List Stream3CandidateInput}
    (hPayloads :
      (input.map Stream3CandidateInput.payloadId).Nodup)
    (threshold : UInt32)
    {localRank : UInt16}
    {worldSize : Nat}
    (hByte : worldSize ≤ 256)
    (hRank : localRank.toNat < worldSize)
    (hFits :
      (remoteWinners input threshold localRank
        worldSize).length < 2 ^ 32) :
    ∃ result,
      thresholdDedupSplit32 input threshold localRank worldSize =
          some result ∧
        Partitions input threshold localRank worldSize result := by
  have hWorld : 0 < worldSize := Nat.zero_lt_of_lt hRank
  have hUnique := uniqueOf_eq input threshold localRank worldSize
  -- the owner in the route is the owner of the hash
  have hOwnerOf :
      ∀ c ∈ uniqueOf input threshold localRank worldSize,
        ownerOf c = ownerFromHash128 c.hash worldSize := by
    intro c hMem
    rw [hUnique] at hMem
    rcases List.mem_map.mp hMem with ⟨item, -, rfl⟩
    exact ownerOf_record localRank hWorld hByte item
  have hOwners :
      ∀ c ∈ uniqueOf input threshold localRank worldSize,
        ownerOf c < worldSize := by
    intro c hMem
    rw [hOwnerOf c hMem]
    exact Nat.mod_lt _ hWorld
  have hSorted :
      (uniqueOf input threshold localRank worldSize).Pairwise
        fun a b => a.hash < b.hash := by
    rw [hUnique, List.pairwise_map]
    exact leastRows_pairwise input threshold
  have hRecords :
      ∀ c, c ∈ uniqueOf input threshold localRank worldSize ↔
        ∃ item, IsLeastOfHash input threshold item ∧
          c = item.record localRank worldSize := by
    intro c
    rw [hUnique, List.mem_map]
    simp only [mem_leastRows_iff hPayloads, eq_comm]
  have hCovers :
      ∀ item ∈ input, item.scoreKey ≤ threshold →
        ∃ c ∈ uniqueOf input threshold localRank worldSize,
          c.hash = item.hash := by
    intro item hMem hWithin
    rcases
      (leastRows_reduces input threshold).cover item
        (mem_sortedInput.mpr ⟨hMem, hWithin⟩) trivial with
      ⟨kept, hKept, hKey, -⟩
    rw [hUnique]
    exact ⟨_, List.mem_map_of_mem hKept, hKey⟩
  rw [remoteWinners] at hFits
  refine ⟨_, splitByOwner32_eq hOwners hFits, ?_⟩
  generalize uniqueOf input threshold localRank worldSize =
    unique at *
  have hPerm :
      ((splitByOwner localRank worldSize unique).localPending ++
        (splitByOwner localRank worldSize
          unique).remoteSend).Perm unique :=
    splitByOwner_perm hOwners
  have hSent :
      (splitByOwner localRank worldSize unique).remoteSend.Perm
        (remoteRows localRank unique) :=
    remoteSend_perm hOwners
  have hLength := hSent.length_eq
  have hSlice := fun peer (hPeer : peer < worldSize) =>
    @slice_splitByOwner localRank worldSize unique hOwners peer
      hPeer
  exact
    { records := fun c => hPerm.mem_iff.trans (hRecords c)
      covers := by
        intro item hMem hWithin
        rcases hCovers item hMem hWithin with ⟨c, hC, hHash⟩
        exact ⟨c, hPerm.mem_iff.mpr hC, hHash⟩
      once := by
        rw [(hPerm.map CandidateMeta.hash).nodup_iff,
          List.Nodup, List.pairwise_map]
        exact hSorted.imp fun hLt => hLt.ne
      owned := by
        intro c hMem
        have hC := hPerm.mem_iff.mp hMem
        rw [mem_localPending hOwners, ← hOwnerOf c hC]
        exact and_iff_right hC
      counts := by
        rw [splitByOwner_eq hOwners]
        exact length_firstN _ _
      offsets := by
        rw [hLength, splitByOwner_eq hOwners]
        dsimp only
        rw [getD_firstN _ (by omega), getD_firstN _ (by omega)]
        exact
          ⟨length_firstN _ _, below_zero _,
            below_remoteCount_world hOwners⟩
      slices := by
        intro peer hPeer
        rw [hSlice peer hPeer]
        refine ⟨?_, ?_, fun c => ?_⟩
        · rw [splitByOwner_eq hOwners]
          dsimp only
          rw [getD_firstN _ hPeer, remoteCount,
            List.countP_eq_length_filter]
        · exact (hSorted.filter _).filter _
        · rw [hSent.mem_iff, List.mem_filter, decide_eq_true_eq]
          refine and_congr_right fun hMem => ?_
          rw [hOwnerOf c (List.mem_filter.mp hMem).1]
      own := by
        rw [hSlice localRank.toNat hRank]
        refine List.filter_eq_nil_iff.mpr fun c hMem => ?_
        have hOther := of_decide_eq_true (List.mem_filter.mp hMem).2
        rw [decide_eq_true_eq]
        exact hOther }

/- Two rows of one hash and one of another, all within. -/
def threeInputs : List Stream3CandidateInput :=
  [{ hash := { lo := 1, hi := 2 }, scoreKey := 5, payloadId := 0,
      parentIdx := 7, move := 1 },
    { hash := { lo := 1, hi := 2 }, scoreKey := 4, payloadId := 1,
      parentIdx := 8, move := 2 },
    { hash := { lo := 3, hi := 4 }, scoreKey := 4, payloadId := 2,
      parentIdx := 9, move := 3 }]

theorem thresholdDedupSplit32_partitions_three :
    ∃ result,
      thresholdDedupSplit32 threeInputs 9 0 2 = some result ∧
        Partitions threeInputs 9 0 2 result :=
  thresholdDedupSplit32_partitions (by decide) 9 (by decide)
    (by decide) (by decide)

----------------
-- A Counter That Wraps
----------------

/- Nothing can be written to an empty buffer. -/
theorem foldlM_sendRemote32_empty
    (hSome : remoteRows localRank unique ≠ [])
    (state : Cursors CandidateMeta) :
    unique.foldlM (sendRemote32 localRank 0) state = none := by
  induction unique with
  | nil => exact absurd rfl hSome
  | cons c unique ih =>
      rw [List.foldlM_cons]
      unfold sendRemote32
      dsimp only
      by_cases hRemote : ownerOf c ≠ localRank.toNat
      · rw [if_pos hRemote, if_neg (Nat.not_lt_zero _)]
        rfl
      · have hRest : remoteRows localRank unique ≠ [] := by
          unfold remoteRows at hSome ⊢
          rwa [List.filter_cons_of_neg
            (by rw [decide_eq_false hRemote]; exact nofun)]
            at hSome
        rw [if_neg hRemote]
        exact ih hRest

/- With 2 ^ 32 rows to send the buffer has no room at all. -/
theorem splitByOwner32_wraps
    (hOwners : ∀ c ∈ unique, ownerOf c < worldSize)
    (hMany : (remoteRows localRank unique).length = 2 ^ 32) :
    splitByOwner32 localRank worldSize unique = none := by
  have hSize :=
    foldl_addOffset32 (remoteCount localRank unique) worldSize
      (le_refl worldSize)
  rw [below_remoteCount_world hOwners, hMany, Nat.mod_self] at hSize
  have hSome : remoteRows localRank unique ≠ [] := by
    intro hNone
    rw [hNone] at hMany
    exact absurd hMany (Nat.two_pow_pos 32).ne
  unfold splitByOwner32
  rw [foldl_countOwner32]
  dsimp only
  rw [hSize, foldlM_sendRemote32_empty hSome]
  rfl

/- Hashes apart by their low halves. -/
def lowHash (i : Nat) : Hash128 :=
  { lo := UInt64.ofNat i, hi := 0 }

/- Of twice as many hashes one rank of two owns enough. -/
theorem exists_owner (n : Nat) :
    ∃ owner < 2,
      n ≤
        ((List.range (2 * n)).filter fun i =>
          ownerFromHash128 (lowHash i) 2 = owner).length := by
  have hSplit :=
    List.length_eq_length_filter_add (l := List.range (2 * n))
      fun i => decide (ownerFromHash128 (lowHash i) 2 = 0)
  rw [List.length_range] at hSplit
  have hOther :
      ((List.range (2 * n)).filter fun i =>
          !decide (ownerFromHash128 (lowHash i) 2 = 0)) =
        (List.range (2 * n)).filter fun i =>
          ownerFromHash128 (lowHash i) 2 = 1 := by
    apply List.filter_congr
    intro i _
    have hLt : ownerFromHash128 (lowHash i) 2 < 2 :=
      Nat.mod_lt _ (Nat.succ_pos 1)
    rw [Bool.eq_iff_iff]
    simp only [Bool.not_eq_true', decide_eq_false_iff_not,
      decide_eq_true_eq]
    omega
  rw [hOther] at hSplit
  by_cases hZero :
      n ≤
        ((List.range (2 * n)).filter fun i =>
          ownerFromHash128 (lowHash i) 2 = 0).length
  · exact ⟨0, by omega, hZero⟩
  · exact ⟨1, by omega, by omega⟩

/- One row a hash, with payloads in order. -/
def rowsOfHashes (hashes : List Nat) : List Stream3CandidateInput :=
  hashes.zipIdx.map fun pair =>
    { hash := lowHash pair.1
      scoreKey := 0
      payloadId := UInt32.ofNat pair.2
      parentIdx := 0
      move := 0 }

theorem map_hash_rowsOfHashes (hashes : List Nat) :
    (rowsOfHashes hashes).map Stream3CandidateInput.hash =
      hashes.map lowHash := by
  rw [rowsOfHashes, List.map_map]
  calc
    hashes.zipIdx.map (fun pair => lowHash pair.1) =
        (hashes.zipIdx.map Prod.fst).map lowHash := by
      rw [List.map_map]
      rfl
    _ = hashes.map lowHash := by
      rw [List.zipIdx_map_fst]

theorem payloads_rowsOfHashes
    {hashes : List Nat}
    (hFits : hashes.length ≤ 2 ^ 32) :
    ((rowsOfHashes hashes).map
      Stream3CandidateInput.payloadId).Nodup := by
  have hMap :
      (rowsOfHashes hashes).map Stream3CandidateInput.payloadId =
        (List.range' 0 hashes.length).map UInt32.ofNat := by
    rw [rowsOfHashes, List.map_map, ← List.zipIdx_map_snd,
      List.map_map]
    rfl
  rw [hMap]
  refine List.Nodup.map_on ?_ List.nodup_range'
  intro a hA b hB hSame
  have hLtA := (List.mem_range'_1.mp hA).2
  have hLtB := (List.mem_range'_1.mp hB).2
  have hSize : UInt32.size = 2 ^ 32 := rfl
  have hNat := congrArg UInt32.toNat hSame
  rw [UInt32.toNat_ofNat_of_lt' (by omega),
    UInt32.toNat_ofNat_of_lt' (by omega)] at hNat
  exact hNat

theorem lowHash_inj
    {i j : Nat}
    (hI : i < 2 ^ 64)
    (hJ : j < 2 ^ 64)
    (hSame : lowHash i = lowHash j) :
    i = j := by
  have hLow := congrArg (fun hash => hash.lo.toNat) hSame
  simp only [lowHash] at hLow
  rwa [UInt64.toNat_ofNat_of_lt' hI, UInt64.toNat_ofNat_of_lt' hJ]
    at hLow

/- Rows of distinct hashes are all kept. -/
theorem leastRows_perm
    (hHashes : (input.map Stream3CandidateInput.hash).Nodup)
    (hPayloads :
      (input.map Stream3CandidateInput.payloadId).Nodup)
    {threshold : UInt32}
    (hWithin : ∀ item ∈ input, item.scoreKey ≤ threshold) :
    (leastRows input threshold).Perm input := by
  have hNodup : (leastRows input threshold).Nodup :=
    (leastRows_pairwise input threshold).imp fun hLt hSame =>
      absurd (congrArg Stream3CandidateInput.hash hSame) hLt.ne
  refine
    (List.perm_ext_iff_of_nodup hNodup
      (List.Nodup.of_map _ hHashes)).mpr fun item => ?_
  rw [mem_leastRows_iff hPayloads]
  constructor
  · exact fun hLeast => hLeast.mem
  · intro hMem
    refine ⟨hMem, hWithin item hMem, fun other hOther _ hHash => ?_⟩
    rw [List.inj_on_of_nodup_map hHashes hOther hMem hHash]
    exact Or.inr ⟨rfl, UInt32.le_refl _⟩

/- Some rank of two sends as many rows as there are payloads. -/
theorem exists_remoteWinners
    {n : Nat}
    (hFits : n ≤ 2 ^ 32) :
    ∃ (input : List Stream3CandidateInput) (localRank : UInt16),
      (input.map Stream3CandidateInput.payloadId).Nodup ∧
        localRank.toNat < 2 ∧
        (remoteWinners input 0 localRank 2).length = n := by
  rcases exists_owner n with ⟨owner, hOwner, hMany⟩
  generalize hHashes :
    ((List.range (2 * n)).filter fun i =>
      ownerFromHash128 (lowHash i) 2 = owner).take n = hashes
  have hLength : hashes.length = n := by
    rw [← hHashes, List.length_take]
    omega
  have hEach :
      ∀ i ∈ hashes, i < 2 ^ 64 ∧
        ownerFromHash128 (lowHash i) 2 = owner := by
    intro i hMem
    rw [← hHashes] at hMem
    rcases List.mem_filter.mp (List.mem_of_mem_take hMem) with
      ⟨hRange, hKey⟩
    have hLt := List.mem_range.mp hRange
    exact ⟨by omega, of_decide_eq_true hKey⟩
  have hNodup : hashes.Nodup := by
    rw [← hHashes]
    exact
      (List.take_sublist _ _).nodup (List.nodup_range.filter _)
  have hRank :
      ∃ localRank : UInt16, localRank.toNat < 2 ∧
        owner ≠ localRank.toNat := by
    by_cases hZero : owner = 0
    · exact ⟨1, by decide, by rw [hZero]; decide⟩
    · exact ⟨0, by decide, hZero⟩
  rcases hRank with ⟨localRank, hRank, hOther⟩
  have hPayloads := payloads_rowsOfHashes (hLength.trans_le hFits)
  have hDistinct :
      ((rowsOfHashes hashes).map
        Stream3CandidateInput.hash).Nodup := by
    rw [map_hash_rowsOfHashes]
    refine List.Nodup.map_on ?_ hNodup
    intro i hI j hJ hSame
    exact lowHash_inj (hEach i hI).1 (hEach j hJ).1 hSame
  have hWithin :
      ∀ item ∈ rowsOfHashes hashes, item.scoreKey ≤ 0 := by
    intro item hMem
    rcases List.mem_map.mp hMem with ⟨pair, -, rfl⟩
    exact UInt32.le_refl 0
  have hPerm := leastRows_perm hDistinct hPayloads hWithin
  refine ⟨rowsOfHashes hashes, localRank, hPayloads, hRank, ?_⟩
  have hAll :
      remoteWinners (rowsOfHashes hashes) 0 localRank 2 =
        (leastRows (rowsOfHashes hashes) 0).map
          (Stream3CandidateInput.record localRank 2) := by
    rw [remoteWinners, uniqueOf_eq, remoteRows]
    refine List.filter_eq_self.mpr fun c hMem => ?_
    rcases List.mem_map.mp hMem with ⟨item, hItem, rfl⟩
    rcases List.mem_map.mp (hPerm.mem_iff.mp hItem) with
      ⟨pair, hPair, rfl⟩
    rw [decide_eq_true_eq,
      ownerOf_record localRank (by decide) (by decide)]
    have hHash : pair.1 ∈ hashes := by
      rw [← List.zipIdx_map_fst 0 hashes]
      exact List.mem_map_of_mem hPair
    rw [(hEach pair.1 hHash).2]
    exact hOther
  rw [hAll, List.length_map, hPerm.length_eq, rowsOfHashes,
    List.length_map, List.length_zipIdx, hLength]

/-
  With a row for every payload, all of other ranks, the counter of
  32 bits wraps to zero, and the first row is written out of range.
-/
theorem thresholdDedupSplit32_wraps :
    ∃ (input : List Stream3CandidateInput) (localRank : UInt16),
      (input.map Stream3CandidateInput.payloadId).Nodup ∧
        localRank.toNat < 2 ∧
        thresholdDedupSplit32 input 0 localRank 2 = none := by
  rcases exists_remoteWinners (le_refl (2 ^ 32)) with
    ⟨input, localRank, hPayloads, hRank, hMany⟩
  refine ⟨input, localRank, hPayloads, hRank, ?_⟩
  refine splitByOwner32_wraps ?_ hMany
  intro c hMem
  rw [uniqueOf_eq] at hMem
  rcases List.mem_map.mp hMem with ⟨item, -, rfl⟩
  rw [ownerOf_record localRank (by decide) (by decide)]
  exact Nat.mod_lt _ (by decide)

end Stream3

end BeamSearch
