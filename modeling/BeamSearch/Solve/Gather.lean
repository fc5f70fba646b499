import Mathlib.Data.List.Lex
import BeamSearch.Solve.Bucket

/-
  What one gathering returns.

  The comparison of records is the lexicographic order of their
  fields. Every rank selects its own next records, and what all
  ranks receive holds the next records of all: the same batch on
  every rank.

  Main declarations:
    * `orderKey`, `solveBucketRecordLess_ordersBy`
    * `storedKeys`
    * `sendChunks_eq`
    * `gatherSolveBucketRecordBatch_spec`
-/

namespace BeamSearch

open NextK

namespace Solve

variable {tables : SuffixTables} {record : SolveBucketRecord} {config : BucketConfig}
    {memory : Nat → SolvedMemory} {chunkRecords : Nat}
    {selected : Nat → List SolveBucketRecord}

----------------
-- The Order Of Records
----------------

/- Lists of numbers in lexicographic order. -/
def RecordKey : Type :=
  List Nat

/- The order of lists of numbers. -/
instance : LinearOrder RecordKey :=
  inferInstanceAs (LinearOrder (List Nat))

/- The fields that the order compares, in turn. -/
def orderFields (record : SolveBucketRecord) : List Nat :=
  let candidate := record.hit.candidate
  [record.totalDepth.toNat, record.ownerRank.toNat,
    record.hit.depth.toNat, candidate.parentIdx.toNat,
    candidate.routePacked.toNat, candidate.hash.lo.toNat,
    candidate.hash.hi.toNat, record.hit.suffix.toNat]

/- The key of a record. -/
def orderKey (record : SolveBucketRecord) : RecordKey :=
  orderFields record

theorem ite_lt_iff_cons32
    {a b : UInt32}
    {rest : Bool}
    {as bs : List Nat}
    (hRest : rest = true ↔ as < bs) :
    (if a ≠ b then decide (a < b) else rest) = true ↔
      a.toNat :: as < b.toNat :: bs := by
  rw [List.cons_lt_cons_iff, ← UInt32.lt_iff_toNat_lt,
    UInt32.toNat_inj]
  split_ifs with hNe
  · rw [decide_eq_true_iff]
    exact (or_iff_left fun hEq => hNe hEq.1).symm
  · rw [hRest]
    have hEq : a = b := not_not.mp hNe
    subst hEq
    simp

theorem ite_lt_iff_cons64
    {a b : UInt64}
    {rest : Bool}
    {as bs : List Nat}
    (hRest : rest = true ↔ as < bs) :
    (if a ≠ b then decide (a < b) else rest) = true ↔
      a.toNat :: as < b.toNat :: bs := by
  rw [List.cons_lt_cons_iff, ← UInt64.lt_iff_toNat_lt,
    UInt64.toNat_inj]
  split_ifs with hNe
  · rw [decide_eq_true_iff]
    exact (or_iff_left fun hEq => hNe hEq.1).symm
  · rw [hRest]
    have hEq : a = b := not_not.mp hNe
    subst hEq
    simp

/- The comparison is strict, and total up to all its fields. -/
theorem solveBucketRecordLess_ordersBy :
    OrdersBy solveBucketRecordLess orderKey := by
  intro a b
  rw [solveBucketRecordLess]
  refine ite_lt_iff_cons32 (ite_lt_iff_cons32 ?_)
  refine ite_lt_iff_cons32 (ite_lt_iff_cons64 ?_)
  refine ite_lt_iff_cons32 (ite_lt_iff_cons64 ?_)
  refine ite_lt_iff_cons64 ?_
  rw [decide_eq_true_iff, UInt32.lt_iff_toNat_lt,
    List.cons_lt_cons_iff]
  simp

/- Records of one key differ in the score at most. -/
theorem orderKey_eq_iff {a b : SolveBucketRecord} :
    orderKey a = orderKey b ↔
      a.ownerRank = b.ownerRank ∧ a.totalDepth = b.totalDepth ∧
        a.hit.atGoal = b.hit.atGoal := by
  rcases a with ⟨rankA, totalA, ⟨⟨⟨loA, hiA⟩, pA, sA, rA⟩, dA, xA⟩⟩
  rcases b with ⟨rankB, totalB, ⟨⟨⟨loB, hiB⟩, pB, sB, rB⟩, dB, xB⟩⟩
  refine
    Iff.trans (b := orderFields _ = orderFields _) Iff.rfl ?_
  simp only [orderFields, SolvedHit.atGoal, List.cons.injEq,
    UInt32.toNat_inj, UInt64.toNat_inj, SolvedHit.mk.injEq,
    CandidateMeta.mk.injEq, Hash128.mk.injEq]
  tauto

----------------
-- Stored Records
----------------

theorem makeRecord_eq_ok
    {rank : UInt32}
    {hit : SolvedHit} :
    makeRecord tables rank hit = .ok record ↔
      hit.totalDepth tables = .ok record.totalDepth ∧
        record.ownerRank = rank ∧ record.hit = hit := by
  rw [makeRecord]
  cases hTotal : hit.totalDepth tables with
  | error exception =>
      exact
        ⟨fun hOk => (nomatch hOk), fun hOk => (nomatch hOk.1)⟩
  | ok totalDepth =>
      constructor
      · intro hOk
        cases hOk
        exact ⟨rfl, rfl, rfl⟩
      · rintro ⟨hSame, rfl, rfl⟩
        cases hSame
        rfl

/- The records of one rank's buffers. -/
def rankRecords
    (config : BucketConfig)
    (memory : Nat → SolvedMemory)
    (rank : Nat) : List SolveBucketRecord :=
  (storedHits config (memory rank)).filterMap fun hit =>
    (makeRecord config.tables (UInt32.ofNat rank) hit).toOption

/- The records of all ranks. -/
def storedRecords
    (config : BucketConfig)
    (memory : Nat → SolvedMemory) : List SolveBucketRecord :=
  (List.range config.worldSize.toNat).flatMap
    (rankRecords config memory)

/- Their keys. -/
def storedKeys
    (config : BucketConfig)
    (memory : Nat → SolvedMemory) : Finset (RecordKey) :=
  ((storedRecords config memory).map orderKey).toFinset

theorem mem_storedRecords :
    record ∈ storedRecords config memory ↔
      ∃ rank < config.worldSize.toNat,
        record ∈ rankRecords config memory rank := by
  simp [storedRecords]

/- A hit whose suffixes are not in the tables. -/
def LacksSuffix
    (config : BucketConfig)
    (memory : Nat → SolvedMemory)
    (exception : Exception) : Prop :=
  ∃ rank < config.worldSize.toNat,
    ∃ hit ∈ storedHits config (memory rank),
      hit.totalDepth config.tables = .error exception

----------------
-- Local Selection
----------------

theorem flatten_hostChunks (hits : List SolvedHit) :
    (hostChunks hits).flatten = hits := by
  rw [hostChunks, ← List.flatMap_def, Exchange.flatMap_chunks]
  refine List.take_of_length_le ?_
  rw [maxHostRecordsPerChunk]
  omega

theorem foldlM_flatten
    {ε α β : Type}
    (step : β → α → Except ε β)
    (chunks : List (List α))
    (b : β) :
    chunks.foldlM (fun b chunk => chunk.foldlM step b) b =
      chunks.flatten.foldlM step b := by
  induction chunks generalizing b with
  | nil => rfl
  | cons chunk chunks ih =>
      rw [List.foldlM_cons, List.flatten_cons, List.foldlM_append]
      congr 1
      funext c
      exact ih c

/- Steps that read a value and then go on without failing. -/
theorem foldlM_read
    {ε α β γ : Type}
    (read : α → Except ε γ)
    (next : β → γ → β)
    (xs : List α)
    (b : β) :
    (∃ x ∈ xs, ∃ error, read x = .error error ∧
        xs.foldlM (fun b x => do .ok (next b (← read x))) b =
          .error error) ∨
      (∀ x ∈ xs, ∃ y, read x = .ok y) ∧
        xs.foldlM (fun b x => do .ok (next b (← read x))) b =
          .ok
            ((xs.filterMap fun x => (read x).toOption).foldl next
              b) := by
  induction xs generalizing b with
  | nil => exact Or.inr ⟨fun _ hx => (nomatch hx), rfl⟩
  | cons x xs ih =>
      rw [List.foldlM_cons, List.filterMap_cons]
      cases hRead : read x with
      | error error =>
          exact
            Or.inl ⟨x, List.mem_cons_self, error, hRead, rfl⟩
      | ok y =>
          rcases ih (next b y) with
            ⟨z, hz, error, hError, hRun⟩ | ⟨hAll, hRun⟩
          · exact
              Or.inl
                ⟨z, List.mem_cons_of_mem x hz, error, hError,
                  hRun⟩
          · refine Or.inr ⟨fun z hz => ?_, hRun⟩
            rcases List.mem_cons.mp hz with rfl | hz
            · exact ⟨y, hRead⟩
            · exact hAll z hz

theorem foldl_filter_insertBounded
    (cursor : Option SolveBucketRecord)
    (batchLimit : Nat)
    (records kept : List SolveBucketRecord) :
    records.foldl
        (fun selected record =>
          if behindCursor cursor record then
            insertBounded solveBucketRecordLess batchLimit
              selected record
          else selected)
        kept =
      (records.filter (behindCursor cursor)).foldl
        (insertBounded solveBucketRecordLess batchLimit) kept := by
  rw [List.foldl_filter]

theorem makeRecord_error
    {rank : UInt32}
    {hit : SolvedHit}
    {exception : Exception}
    (hError : makeRecord tables rank hit = .error exception) :
    hit.totalDepth tables = .error exception := by
  rw [makeRecord] at hError
  cases hTotal : hit.totalDepth tables with
  | error other =>
      rw [hTotal] at hError
      cases hError
      rfl
  | ok totalDepth =>
      rw [hTotal] at hError
      cases hError

/- A rank selects the next of its own records. -/
theorem selectLocalRecords_cases
    (config : BucketConfig)
    (memory : Nat → SolvedMemory)
    (rank : Nat)
    (cursor : Option SolveBucketRecord)
    (batchLimit : Nat) :
    (∃ hit ∈ storedHits config (memory rank), ∃ exception,
        hit.totalDepth config.tables = .error exception ∧
          selectLocalRecords config.tables (UInt32.ofNat rank)
              cursor batchLimit
              (storedHits config (memory rank)) =
            .error exception) ∨
      selectLocalRecords config.tables (UInt32.ofNat rank) cursor
          batchLimit (storedHits config (memory rank)) =
        .ok
          (nextK solveBucketRecordLess batchLimit
            ((rankRecords config memory rank).filter
              (behindCursor cursor))) := by
  rw [selectLocalRecords, foldlM_flatten, flatten_hostChunks]
  rcases foldlM_read
      (makeRecord config.tables (UInt32.ofNat rank))
      (fun selected record =>
        if behindCursor cursor record then
          insertBounded solveBucketRecordLess batchLimit selected
            record
        else selected)
      (storedHits config (memory rank)) [] with
    ⟨hit, hMember, exception, hError, hRun⟩ | ⟨-, hRun⟩
  · exact
      Or.inl
        ⟨hit, hMember, exception, makeRecord_error hError, hRun⟩
  · refine Or.inr (hRun.trans ?_)
    rw [foldl_filter_insertBounded]
    rfl

----------------
-- Chunks Of Packets
----------------

/- The packet at a place; behind the records there is none. -/
def packetAt
    (selected : List SolveBucketRecord)
    (i : Nat) : Packet :=
  match selected[i]? with
  | none => noPacket
  | some record => packRecord record

/- The packets of a round. -/
def packetChunk
    (chunkRecords batchLimit : Nat)
    (selected : List SolveBucketRecord)
    (k : Nat) : List Packet :=
  let base := k * chunkRecords
  (List.range (min chunkRecords (batchLimit - base))).map
    fun offset => packetAt selected (base + offset)

/- The rounds of a batch. -/
def chunkRounds (chunkRecords batchLimit : Nat) : Nat :=
  (batchLimit + chunkRecords - 1) / chunkRecords

/- A chunk that was measured by the scratch fits it. -/
theorem sendChunks_eq
    (hChunk :
      gatherRecordsPerChunk config.scratchWords
          config.worldSize =
        .ok chunkRecords)
    (batchLimit : Nat)
    (selected : List SolveBucketRecord) :
    sendChunks config chunkRecords batchLimit selected =
      .ok
        ((List.range (chunkRounds chunkRecords batchLimit)).map
          (packetChunk chunkRecords batchLimit selected)) := by
  rw [gatherRecordsPerChunk] at hChunk
  split_ifs at hChunk
  have hRecords := Except.ok.inj hChunk
  refine mapM_of_forall_ok fun k _ => ?_
  have hFits :
      min chunkRecords (batchLimit - k * chunkRecords) *
          (8 * (config.worldSize.toNat + 1)) ≤
        config.scratchWords := by
    refine (Nat.mul_le_mul_right _ (Nat.min_le_left _ _)).trans ?_
    refine
      (Nat.mul_le_mul_right _ ?_).trans
        (Nat.div_mul_le_self config.scratchWords
          (8 * (config.worldSize.toNat + 1)))
    rw [← hRecords]
    exact Nat.min_le_left _ _
  have hWords :
      min chunkRecords (batchLimit - k * chunkRecords) * 8 +
          min chunkRecords (batchLimit - k * chunkRecords) * 8 *
            config.worldSize.toNat =
        min chunkRecords (batchLimit - k * chunkRecords) *
          (8 * (config.worldSize.toNat + 1)) := by
    rw [← Nat.mul_assoc, Nat.mul_add, Nat.mul_one, Nat.add_comm]
  exact if_neg (not_lt.mpr (hWords.trans_le hFits))

theorem map_length_packetChunks
    (chunkRecords batchLimit : Nat)
    (selected other : List SolveBucketRecord) :
    ((List.range (chunkRounds chunkRecords batchLimit)).map
        (packetChunk chunkRecords batchLimit selected)).map
        List.length =
      ((List.range (chunkRounds chunkRecords batchLimit)).map
        (packetChunk chunkRecords batchLimit other)).map
        List.length := by
  rw [List.map_map, List.map_map]
  refine List.map_congr_left fun k _ => ?_
  simp only [Function.comp_apply, packetChunk, List.length_map]

/- The chunks of all ranks behind each other. -/
def gathered
    (worldSize chunkRecords batchLimit : Nat)
    (selected : Nat → List SolveBucketRecord) :
    List (List Packet) :=
  (List.range (chunkRounds chunkRecords batchLimit)).map fun k =>
    (List.range worldSize).flatMap fun peer =>
      packetChunk chunkRecords batchLimit (selected peer) k

theorem allGather_eq
    {worldSize batchLimit : Nat}
    {sends : Nat → List (List Packet)}
    (hWorld : 0 < worldSize)
    (hSends :
      ∀ rank < worldSize,
        sends rank =
          (List.range (chunkRounds chunkRecords batchLimit)).map
            (packetChunk chunkRecords batchLimit
              (selected rank))) :
    allGather worldSize sends =
      .ok
        (gathered worldSize chunkRecords batchLimit
          selected) := by
  have hShapes :
      ((List.range worldSize).all fun rank =>
          decide
            ((sends rank).map List.length =
              (sends 0).map List.length)) =
        true := by
    rw [List.all_eq_true]
    intro rank hRank
    rw [decide_eq_true_iff,
      hSends rank (List.mem_range.mp hRank), hSends 0 hWorld]
    exact map_length_packetChunks _ _ _ _
  rw [allGather, if_pos hShapes, gathered, hSends 0 hWorld,
    List.length_map, List.length_range]
  refine congrArg Except.ok (List.map_congr_left fun k hk => ?_)
  refine List.flatMap_congr fun peer hPeer => ?_
  rw [hSends peer (List.mem_range.mp hPeer), List.getElem?_map,
    List.getElem?_range (List.mem_range.mp hk)]
  rfl

/- The packets that hold a record are those selected. -/
theorem mem_gathered
    {worldSize batchLimit : Nat}
    (hChunk : 0 < chunkRecords)
    (hLength :
      ∀ rank < worldSize, (selected rank).length ≤ batchLimit)
    (packet : Packet) :
    (packet ∈
        (gathered worldSize chunkRecords batchLimit
          selected).flatten ∧
      packet.present ≠ 0) ↔
      ∃ peer < worldSize, ∃ record ∈ selected peer,
        packet = packRecord record := by
  constructor
  · rintro ⟨hMember, hPresent⟩
    rcases List.mem_flatten.mp hMember with ⟨chunk, hIn, hPacket⟩
    rcases List.mem_map.mp hIn with ⟨k, -, rfl⟩
    rcases List.mem_flatMap.mp hPacket with ⟨peer, hPeer, hSlot⟩
    rcases List.mem_map.mp hSlot with ⟨offset, -, rfl⟩
    rw [packetAt] at hPresent ⊢
    cases hRecord :
        (selected peer)[k * chunkRecords + offset]? with
    | none =>
        rw [hRecord] at hPresent
        exact absurd rfl hPresent
    | some record =>
        exact
          ⟨peer, List.mem_range.mp hPeer, record,
            List.mem_of_getElem? hRecord, rfl⟩
  · rintro ⟨peer, hPeer, record, hRecord, rfl⟩
    refine ⟨?_, (by decide : (1 : UInt64) ≠ 0)⟩
    rcases List.getElem_of_mem hRecord with ⟨i, hi, hSlot⟩
    have hLimit := hi.trans_le (hLength peer hPeer)
    have hSplit := Nat.div_add_mod i chunkRecords
    have hOffset := Nat.mod_lt i hChunk
    rw [Nat.mul_comm] at hSplit
    have hRound :
        i / chunkRecords < chunkRounds chunkRecords batchLimit := by
      rw [chunkRounds, Nat.lt_div_iff_mul_lt hChunk]
      omega
    refine
      List.mem_flatten.mpr
        ⟨_, List.mem_map.mpr
          ⟨i / chunkRecords, List.mem_range.mpr hRound, rfl⟩, ?_⟩
    refine
      List.mem_flatMap.mpr ⟨peer, List.mem_range.mpr hPeer, ?_⟩
    refine
      List.mem_map.mpr
        ⟨i % chunkRecords, List.mem_range.mpr (by omega), ?_⟩
    rw [hSplit, packetAt, List.getElem?_eq_getElem hi, hSlot]

----------------
-- Received Records
----------------

/- The record as a packet brings it: the score is not sent. -/
def SolveBucketRecord.atGoal
    (record : SolveBucketRecord) : SolveBucketRecord :=
  { record with hit := record.hit.atGoal }

theorem unpackRecord_packRecord
    (hTotal :
      record.hit.totalDepth tables = .ok record.totalDepth) :
    unpackRecord tables (packRecord record) =
      .ok record.atGoal := by
  rw [unpackRecord, packRecord, unpackHit_packHit,
    makeRecord_eq_ok]
  refine ⟨hTotal, ?_, rfl⟩
  simp [packHit, SolveBucketRecord.atGoal]

/- A rank keeps the next of all that was selected. -/
theorem receiveRecords_eq
    {worldSize batchLimit : Nat}
    (hChunk : 0 < chunkRecords)
    (hLength :
      ∀ rank < worldSize, (selected rank).length ≤ batchLimit)
    (hTotal :
      ∀ rank < worldSize, ∀ record ∈ selected rank,
        record.hit.totalDepth tables = .ok record.totalDepth) :
    ∃ records,
      receiveRecords tables batchLimit
          (gathered worldSize chunkRecords batchLimit selected) =
        .ok (nextK solveBucketRecordLess batchLimit records) ∧
      ∀ record,
        record ∈ records ↔
          ∃ peer < worldSize, ∃ sent ∈ selected peer,
            record = sent.atGoal := by
  have hRead :
      ∀ packets : List Packet,
        packets.foldlM (receiveStep tables batchLimit) [] =
          (packets.filter fun p => decide (p.present ≠ 0)).foldlM
            (fun kept packet => do
              .ok
                (insertBounded solveBucketRecordLess batchLimit
                  kept (← unpackRecord tables packet)))
            [] := by
    intro packets
    rw [List.foldlM_filter]
    congr 1
    funext kept packet
    rw [receiveStep]
    by_cases hPresent : packet.present = 0
    · rw [if_pos hPresent, if_neg (by simp [hPresent])]
      rfl
    · rw [if_neg hPresent, if_pos (by simp [hPresent])]
  have hMember :
      ∀ packet ∈
          (gathered worldSize chunkRecords batchLimit
              selected).flatten.filter
            fun p => decide (p.present ≠ 0),
        ∃ peer < worldSize, ∃ record ∈ selected peer,
          packet = packRecord record := by
    intro packet hIn
    rw [List.mem_filter, decide_eq_true_iff] at hIn
    exact (mem_gathered hChunk hLength packet).mp hIn
  rw [receiveRecords, foldlM_flatten, hRead]
  rcases foldlM_read (unpackRecord tables)
      (insertBounded solveBucketRecordLess batchLimit)
      ((gathered worldSize chunkRecords batchLimit
          selected).flatten.filter
        fun p => decide (p.present ≠ 0)) [] with
    ⟨packet, hIn, exception, hError, -⟩ | ⟨-, hRun⟩
  · rcases hMember packet hIn with
      ⟨peer, hPeer, record, hRecord, rfl⟩
    rw [unpackRecord_packRecord (hTotal peer hPeer record hRecord)]
      at hError
    cases hError
  · refine ⟨_, hRun, fun record => ?_⟩
    rw [List.mem_filterMap]
    constructor
    · rintro ⟨packet, hIn, hSome⟩
      rcases hMember packet hIn with
        ⟨peer, hPeer, sent, hSent, rfl⟩
      rw [unpackRecord_packRecord (hTotal peer hPeer sent hSent)]
        at hSome
      exact ⟨peer, hPeer, sent, hSent, (Option.some.inj hSome).symm⟩
    · rintro ⟨peer, hPeer, sent, hSent, rfl⟩
      refine ⟨packRecord sent, ?_, ?_⟩
      · rw [List.mem_filter, decide_eq_true_iff]
        exact
          (mem_gathered hChunk hLength _).mpr
            ⟨peer, hPeer, sent, hSent, rfl⟩
      · rw [unpackRecord_packRecord
          (hTotal peer hPeer sent hSent)]
        rfl

----------------
-- One Gathering
----------------

/- The keys behind the cursor. -/
def laterKeys
    (cursor : Option SolveBucketRecord)
    (keys : Finset (RecordKey)) : Finset (RecordKey) :=
  match cursor with
  | none => keys
  | some last => keys.filter (orderKey last < ·)

theorem mem_laterKeys
    {cursor : Option SolveBucketRecord}
    {keys : Finset (RecordKey)}
    {k : RecordKey} :
    k ∈ laterKeys cursor keys ↔
      k ∈ keys ∧ ∀ last ∈ cursor, orderKey last < k := by
  cases cursor with
  | none => simp [laterKeys]
  | some last => simp [laterKeys]

theorem behindCursor_iff
    {cursor : Option SolveBucketRecord} :
    behindCursor cursor record = true ↔
      ∀ last ∈ cursor, orderKey last < orderKey record := by
  cases cursor with
  | none => simp [behindCursor]
  | some last =>
      rw [behindCursor, solveBucketRecordLess_ordersBy]
      simp

/- What a rank selects of its own records. -/
def ownRecords
    (config : BucketConfig)
    (memory : Nat → SolvedMemory)
    (call : GatherCall)
    (rank : Nat) : List SolveBucketRecord :=
  nextK solveBucketRecordLess call.batchLimit
    ((rankRecords config memory rank).filter
      (behindCursor call.cursor))

/- The keys of one rank's records. -/
def rankKeys
    (config : BucketConfig)
    (memory : Nat → SolvedMemory)
    (rank : Nat) : Finset (RecordKey) :=
  ((rankRecords config memory rank).map orderKey).toFinset

theorem mem_storedKeys
    {k : RecordKey} :
    k ∈ storedKeys config memory ↔
      ∃ rank < config.worldSize.toNat,
        k ∈ rankKeys config memory rank := by
  rw [storedKeys, List.mem_toFinset, List.mem_map]
  constructor
  · rintro ⟨record, hRecord, rfl⟩
    rcases mem_storedRecords.mp hRecord with ⟨rank, hRank, hIn⟩
    exact
      ⟨rank, hRank,
        List.mem_toFinset.mpr (List.mem_map_of_mem hIn)⟩
  · rintro ⟨rank, hRank, hIn⟩
    rw [rankKeys, List.mem_toFinset, List.mem_map] at hIn
    rcases hIn with ⟨record, hRecord, hKey⟩
    exact
      ⟨record, mem_storedRecords.mpr ⟨rank, hRank, hRecord⟩, hKey⟩

theorem map_ownRecords
    (config : BucketConfig)
    (memory : Nat → SolvedMemory)
    (call : GatherCall)
    (rank : Nat) :
    (ownRecords config memory call rank).map orderKey =
      (firstK call.batchLimit
        (laterKeys call.cursor
          (rankKeys config memory rank))).sort := by
  rw [ownRecords, map_nextK solveBucketRecordLess_ordersBy]
  congr 2
  ext k
  rw [mem_laterKeys, List.mem_toFinset, List.mem_map, rankKeys,
    List.mem_toFinset, List.mem_map]
  constructor
  · rintro ⟨record, hRecord, rfl⟩
    rw [List.mem_filter, behindCursor_iff] at hRecord
    exact ⟨⟨record, hRecord.1, rfl⟩, hRecord.2⟩
  · rintro ⟨⟨record, hRecord, rfl⟩, hBehind⟩
    exact
      ⟨record,
        List.mem_filter.mpr
          ⟨hRecord, behindCursor_iff.mpr hBehind⟩,
        rfl⟩

theorem length_ownRecords_le
    (config : BucketConfig)
    (memory : Nat → SolvedMemory)
    (call : GatherCall)
    (rank : Nat) :
    (ownRecords config memory call rank).length ≤
      call.batchLimit := by
  rw [← List.length_map (f := orderKey), map_ownRecords,
    Finset.length_sort, card_firstK]
  exact Nat.min_le_left _ _

theorem mem_rankRecords_of_own
    {call : GatherCall}
    {rank : Nat}
    (hMember : record ∈ ownRecords config memory call rank) :
    record ∈ rankRecords config memory rank :=
  (List.mem_filter.mp (mem_of_mem_nextK hMember)).1

theorem totalDepth_of_mem_rankRecords
    {rank : Nat}
    (hMember : record ∈ rankRecords config memory rank) :
    record.hit.totalDepth config.tables =
      .ok record.totalDepth := by
  rcases List.mem_filterMap.mp hMember with ⟨hit, -, hRecord⟩
  cases hMake :
      makeRecord config.tables (UInt32.ofNat rank) hit with
  | error exception =>
      rw [hMake] at hRecord
      cases hRecord
  | ok made =>
      rw [hMake] at hRecord
      cases hRecord
      rcases makeRecord_eq_ok.mp hMake with ⟨hTotal, -, rfl⟩
      exact hTotal

/- The first of all ranks are among the first of every rank. -/
theorem firstK_gathered
    (config : BucketConfig)
    (memory : Nat → SolvedMemory)
    (call : GatherCall)
    {keys : Finset (RecordKey)}
    (hKeys :
      ∀ k, k ∈ keys ↔
        ∃ rank < config.worldSize.toNat,
          k ∈
            (ownRecords config memory call rank).map orderKey) :
    firstK call.batchLimit keys =
      firstK call.batchLimit
        (laterKeys call.cursor (storedKeys config memory)) := by
  have hOwn :
      ∀ rank k,
        k ∈ (ownRecords config memory call rank).map orderKey ↔
          k ∈
            firstK call.batchLimit
              (laterKeys call.cursor
                (rankKeys config memory rank)) := by
    intro rank k
    rw [map_ownRecords, Finset.mem_sort]
  have hPart :
      ∀ rank < config.worldSize.toNat,
        laterKeys call.cursor (rankKeys config memory rank) ⊆
          laterKeys call.cursor (storedKeys config memory) := by
    intro rank hRank k hk
    rw [mem_laterKeys] at hk ⊢
    exact ⟨mem_storedKeys.mpr ⟨rank, hRank, hk.1⟩, hk.2⟩
  refine firstK_between (fun k hk => ?_) fun k hk => ?_
  · rcases mem_firstK.mp hk with ⟨hLater, hCard⟩
    rcases mem_laterKeys.mp hLater with ⟨hStored, hBehind⟩
    rcases mem_storedKeys.mp hStored with ⟨rank, hRank, hIn⟩
    refine (hKeys k).mpr ⟨rank, hRank, (hOwn rank k).mpr ?_⟩
    refine
      mem_firstK.mpr ⟨mem_laterKeys.mpr ⟨hIn, hBehind⟩, ?_⟩
    exact
      (Finset.card_le_card
        (Finset.filter_subset_filter _
          (hPart rank hRank))).trans_lt hCard
  · rcases (hKeys k).mp hk with ⟨rank, hRank, hIn⟩
    exact
      hPart rank hRank
        (firstK_subset _ _ ((hOwn rank k).mp hIn))

theorem zipIdx_map_range
    {α : Type}
    (f : Nat → α)
    (n : Nat) :
    ((List.range n).map f).zipIdx =
      (List.range n).map fun i => (f i, i) := by
  refine List.ext_getElem (by simp) fun i hi hi' => ?_
  simp

theorem prepareGather_cases
    {call : GatherCall}
    (hCheck : checkGather config call = .ok chunkRecords)
    (memory : Nat → SolvedMemory)
    {rank : Nat}
    (hRank : rank < config.worldSize.toNat) :
    (∃ exception, LacksSuffix config memory exception ∧
        prepareGather config (memory rank) rank call =
          .error (.thrown exception)) ∨
      prepareGather config (memory rank) rank call =
        .ok
          (chunkRecords, ownRecords config memory call rank) := by
  rw [prepareGather, hCheck]
  rcases selectLocalRecords_cases config memory rank call.cursor
      call.batchLimit with
    ⟨hit, hHit, exception, hTotal, hRun⟩ | hRun
  · refine
      Or.inl ⟨exception, ⟨rank, hRank, hit, hHit, hTotal⟩, ?_⟩
    rw [hRun]
    rfl
  · refine Or.inr ?_
    rw [hRun]
    rfl

/- One gathering: the same next records on every rank. -/
theorem gatherSolveBucketRecordBatch_spec
    {call : GatherCall}
    (hWorld : 0 < config.worldSize.toNat)
    (hCheck : checkGather config call = .ok chunkRecords)
    (hRecords :
      gatherRecordsPerChunk config.scratchWords
          config.worldSize =
        .ok chunkRecords)
    (hChunk : 0 < chunkRecords)
    (memory : Nat → SolvedMemory)
    {calls : Nat → GatherCall}
    (hCalls :
      ∀ rank < config.worldSize.toNat, calls rank = call) :
    (∃ exception, LacksSuffix config memory exception ∧
        gatherSolveBucketRecordBatch config memory calls =
          .error (.thrown exception)) ∨
      ∃ records,
        gatherSolveBucketRecordBatch config memory calls =
            .ok
              ((List.range config.worldSize.toNat).map fun _ =>
                makeBatch call.batchLimit records) ∧
          records.map orderKey =
            (firstK call.batchLimit
              (laterKeys call.cursor
                (storedKeys config memory))).sort ∧
          ∀ record ∈ records,
            ∃ stored ∈ storedRecords config memory,
              orderKey record = orderKey stored := by
  rw [gatherSolveBucketRecordBatch]
  rcases mapM_cases
      (fun rank =>
        prepareGather config (memory rank) rank (calls rank))
      (List.range config.worldSize.toNat) with
    ⟨rank, hRank, fault, hError, hRun⟩ | hAll
  · rw [List.mem_range] at hRank
    rw [hCalls rank hRank] at hError
    rcases prepareGather_cases hCheck memory hRank with
      ⟨exception, hLacks, hFails⟩ | hOk
    · rw [hFails] at hError
      cases hError
      refine Or.inl ⟨exception, hLacks, ?_⟩
      rw [hRun]
      rfl
    · rw [hOk] at hError
      cases hError
  · refine Or.inr ?_
    have hPrepared :
        ((List.range config.worldSize.toNat).mapM fun rank =>
            prepareGather config (memory rank) rank
              (calls rank)) =
          .ok
            ((List.range config.worldSize.toNat).map fun rank =>
              (chunkRecords,
                ownRecords config memory call rank)) := by
      refine mapM_of_forall_ok fun rank hRank => ?_
      rcases hAll rank hRank with ⟨value, hOk⟩
      rw [List.mem_range] at hRank
      rw [hCalls rank hRank] at hOk ⊢
      rcases prepareGather_cases hCheck memory hRank with
        ⟨exception, -, hFails⟩ | hDone
      · rw [hFails] at hOk
        cases hOk
      · exact hDone
    have hOwnTotal :
        ∀ rank < config.worldSize.toNat,
          ∀ record ∈ ownRecords config memory call rank,
            record.hit.totalDepth config.tables =
              .ok record.totalDepth :=
      fun _ _ _ hRecord =>
        totalDepth_of_mem_rankRecords
          (mem_rankRecords_of_own hRecord)
    have hStoredIn :
        ∀ rank < config.worldSize.toNat,
          ∀ record ∈ ownRecords config memory call rank,
            record ∈ storedRecords config memory :=
      fun rank hRank record hRecord =>
        mem_storedRecords.mpr
          ⟨rank, hRank, mem_rankRecords_of_own hRecord⟩
    rw [hPrepared]
    by_cases hSingle : config.worldSize.toNat ≤ 1
    · have hOne : config.worldSize.toNat = 1 := by omega
      have hKeys :
          storedKeys config memory = rankKeys config memory 0 := by
        ext k
        rw [mem_storedKeys, hOne]
        simp
      refine ⟨ownRecords config memory call 0, ?_, ?_, ?_⟩
      · change
          (if config.worldSize.toNat ≤ 1 then _ else _) = _
        rw [if_pos hSingle, zipIdx_map_range, hOne]
        simp [hCalls 0 hWorld]
      · rw [hKeys]
        exact map_ownRecords config memory call 0
      · intro record hRecord
        exact ⟨record, hStoredIn 0 hWorld record hRecord, rfl⟩
    · rcases receiveRecords_eq hChunk
          (fun rank _ =>
            length_ownRecords_le config memory call rank)
          hOwnTotal with
        ⟨records, hReceived, hMembers⟩
      refine
        ⟨nextK solveBucketRecordLess call.batchLimit records,
          ?_, ?_, ?_⟩
      · have hSends :
            (((List.range config.worldSize.toNat).map fun rank =>
                  (chunkRecords,
                    ownRecords config memory call
                      rank)).zipIdx.mapM
                fun p =>
                  sendChunks config p.1.1 (calls p.2).batchLimit
                    p.1.2) =
              .ok
                ((List.range config.worldSize.toNat).map
                  fun rank =>
                    (List.range
                        (chunkRounds chunkRecords
                          call.batchLimit)).map
                      (packetChunk chunkRecords call.batchLimit
                        (ownRecords config memory call
                          rank))) := by
          rw [zipIdx_map_range, List.mapM_map]
          refine mapM_of_forall_ok fun rank hRank => ?_
          change sendChunks config chunkRecords _ _ = _
          rw [hCalls rank (List.mem_range.mp hRank),
            sendChunks_eq hRecords]
        have hGathered :
            (allGather config.worldSize.toNat fun rank =>
                ((((List.range config.worldSize.toNat).map
                  fun rank =>
                    (List.range
                        (chunkRounds chunkRecords
                          call.batchLimit)).map
                      (packetChunk chunkRecords call.batchLimit
                        (ownRecords config memory call
                          rank)))[rank]?).getD [])) =
              .ok
                (gathered config.worldSize.toNat chunkRecords
                  call.batchLimit
                  (ownRecords config memory call)) :=
          allGather_eq hWorld fun rank hRank => by
            rw [List.getElem?_map, List.getElem?_range hRank]
            rfl
        change
          (if config.worldSize.toNat ≤ 1 then _ else _) = _
        rw [if_neg hSingle, hSends]
        change (allGather _ _ >>= _) = _
        rw [hGathered]
        refine mapM_of_forall_ok fun rank hRank => ?_
        rw [hCalls rank (List.mem_range.mp hRank), hReceived]
        rfl
      · rw [map_nextK solveBucketRecordLess_ordersBy]
        congr 1
        refine firstK_gathered config memory call fun k => ?_
        rw [List.mem_toFinset, List.mem_map]
        constructor
        · rintro ⟨record, hRecord, rfl⟩
          rcases (hMembers record).mp hRecord with
            ⟨peer, hPeer, sent, hSent, rfl⟩
          exact
            ⟨peer, hPeer,
              List.mem_map.mpr ⟨sent, hSent, rfl⟩⟩
        · rintro ⟨peer, hPeer, hIn⟩
          rcases List.mem_map.mp hIn with ⟨sent, hSent, hKey⟩
          exact
            ⟨sent.atGoal,
              (hMembers _).mpr ⟨peer, hPeer, sent, hSent, rfl⟩,
              hKey⟩
      · intro record hRecord
        rcases (hMembers record).mp (mem_of_mem_nextK hRecord) with
          ⟨peer, hPeer, sent, hSent, rfl⟩
        exact ⟨sent, hStoredIn peer hPeer sent hSent, rfl⟩

end Solve

end BeamSearch
