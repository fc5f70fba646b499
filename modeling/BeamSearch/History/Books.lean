import BeamSearch.History.StaticHybrid
import BeamSearch.Lib.Totals

/-
  The byte counters of the runtime crate's store.

  A write adds the bytes of its batch to one tier; pruning moves
  bytes from the memory tier to the pruned ones. So the tiers
  always add up to the layers that are there.

  Main declarations:
    * `Books`, `Books.Balanced`
    * `Accounts`
    * `write_accounts`
    * `writes_balanced`
-/

namespace BeamSearch

open Hoare Totals

namespace History

variable {sizes : List Nat} {store s₀ s : HistoryStore}

----------------
-- Books
----------------

/- The byte counters and the depth counts of a history. -/
structure Books where
  counts : List Nat
  stored : Nat
  storedRam : Nat
  storedDisk : Nat
  pruned : Nat
deriving DecidableEq, Repr

/- An entry has sixteen bytes, in a tier or pruned. -/
structure Books.Balanced
    (sizes : List Nat)
    (books : Books) : Prop where
  tiers : books.stored = books.storedRam + books.storedDisk
  current : books.stored = 16 * books.counts.sum
  written : books.stored + books.pruned = 16 * sizes.sum

/- A depth that was not stored has no rows. -/
def depthCount : Option Depth → Nat
  | some depth => depth.count
  | none => 0

/- The rows of a depth in RAM. -/
def ramCount : Option Depth → Nat
  | some depth => if depth.storage.inRam then depth.count else 0
  | none => 0

/- The rows of a depth on disk. -/
def diskCount : Option Depth → Nat
  | some depth => if depth.storage.inRam then 0 else depth.count
  | none => 0

/- A depth is in RAM or on disk. -/
theorem depthCount_eq (depth : Option Depth) :
    depthCount depth = ramCount depth + diskCount depth := by
  cases depth with
  | none => rfl
  | some depth =>
      rw [depthCount, ramCount, diskCount]
      split
      · rw [Nat.add_zero]
      · rw [Nat.zero_add]

/- So the sums of both are all rows. -/
theorem sum_depthCount (depths : List (Option Depth)) :
    (depths.map depthCount).sum =
      (depths.map ramCount).sum + (depths.map diskCount).sum := by
  induction depths with
  | nil => rfl
  | cons depth depths ih =>
      rw [List.map_cons, List.map_cons, List.map_cons,
        List.sum_cons, List.sum_cons, List.sum_cons, ih,
        depthCount_eq]
      omega

/- The books of the synchronous store. -/
def HistoryStore.books (store : HistoryStore) : Books where
  counts := store.depths.map depthCount
  stored := store.stats.bytesStored
  storedRam := store.stats.bytesStoredRam
  storedDisk := store.stats.bytesStoredDisk
  pruned := store.stats.bytesPruned

/- `sizes` are the sizes of the batches written so far. -/
structure Accounts
    (sizes : List Nat)
    (store : HistoryStore) : Prop where
  ram :
    store.stats.bytesStoredRam =
      16 * (store.depths.map ramCount).sum
  disk :
    store.stats.bytesStoredDisk =
      16 * (store.depths.map diskCount).sum
  tiers :
    store.stats.bytesStored =
      store.stats.bytesStoredRam + store.stats.bytesStoredDisk
  written :
    store.stats.bytesStored + store.stats.bytesPruned =
      16 * sizes.sum
  counted :
    ∀ (index length : Nat) (data : List Entry),
      store.depths[index]? = some (some ⟨length, .ram data⟩) →
      length = data.length

/- The accounts imply that the books balance. -/
theorem Accounts.balanced
    (hAccounts : Accounts sizes store) :
    store.books.Balanced sizes where
  tiers := hAccounts.tiers
  current := by
    have hRam := hAccounts.ram
    have hDisk := hAccounts.disk
    have hTiers := hAccounts.tiers
    change
      store.stats.bytesStored =
        16 * (store.depths.map depthCount).sum
    rw [sum_depthCount]
    omega
  written := hAccounts.written

----------------
-- Storing A Batch
----------------

/- What storing a batch leaves alone. -/
structure Untouched (s₀ s : HistoryStore) : Prop where
  config : s.config = s₀.config
  stats : s.stats = s₀.stats
  depths : s.depths = s₀.depths

/- Nothing was touched. -/
theorem Untouched.refl (s : HistoryStore) : Untouched s s where
  config := rfl
  stats := rfl
  depths := rfl

/- A write to the arena touches no books. -/
theorem writeRam_untouched
    (offset : Nat)
    (batch : List CandidateMeta) :
    Triple (Untouched s₀) (writeRam offset batch)
      (fun _ => Untouched s₀) (fun _ _ => True) := by
  apply Triple.read
  intro s hSame
  cases checkedAdd offset batch.length with
  | none => exact Triple.stop fun _ _ => trivial
  | some last =>
      apply Triple.seq
        ((orThrow_spec s _).stop_mono fun _ _ _ => trivial)
      intro _
      apply Triple.update
      rintro t ⟨-, rfl⟩
      exact
        { config := hSame.config
          stats := hSame.stats
          depths := hSame.depths }

/- A batch is stored as a list in the memory mode only. -/
def Storage.Sized (length : Nat) : Storage → Prop
  | .ram data => data.length = length
  | _ => True

/- Neither does the fallback. -/
theorem storeFallback_untouched
    (plan : Plan)
    (batch : List CandidateMeta)
    (diskError : StoreError) :
    Triple (Untouched s₀) (storeFallback plan batch diskError)
      (fun storage s =>
        Untouched s₀ s ∧ storage.Sized batch.length)
      (fun _ _ => True) := by
  apply Triple.of_state
  intro s hSame
  apply Triple.update_bind
  cases plan.reserveFallback batch.length with
  | error error => exact Triple.stop fun _ _ => trivial
  | ok reserved =>
      apply Triple.update_bind
      have hNext :
          Untouched s₀
            { s with
              diskFailed := true
              plan := some reserved.2 } :=
        { config := hSame.config
          stats := hSame.stats
          depths := hSame.depths }
      apply Triple.seq
        ((writeRam_untouched reserved.1 batch).pre
          fun t hT => hT ▸ hNext)
      intro _
      apply Triple.value
      exact fun t hSame' => ⟨hSame', trivial⟩

/- Nor the hybrid mode. -/
theorem storeStaticHybrid_untouched
    (depth : Nat)
    (batch : List CandidateMeta)
    (io : IoOutcome) :
    Triple (Untouched s₀) (storeStaticHybrid depth batch io)
      (fun storage s =>
        Untouched s₀ s ∧ storage.Sized batch.length)
      (fun _ _ => True) := by
  apply Triple.read
  intro s hSame
  cases s.plan with
  | none => exact Triple.stop fun _ _ => trivial
  | some plan =>
      apply Triple.seq
        ((orThrow_spec s _).stop_mono fun _ _ _ => trivial)
      intro reservation
      apply Triple.pre (P := fun t => t = s) _ fun t hT => hT.2
      cases reservation.location with
      | ram =>
          apply Triple.seq
            ((writeRam_untouched reservation.offset batch).pre
              fun t hT => hT ▸ hSame)
          intro _
          exact Triple.value fun t hSame' => ⟨hSame', trivial⟩
      | disk =>
          apply Triple.branch
          · intro _
            exact
              (storeFallback_untouched plan batch _).pre
                fun t hT => hT ▸ hSame
          · intro _
            cases s.disk with
            | none => exact Triple.stop fun _ _ => trivial
            | some file =>
                apply Triple.update_bind
                have hNext :
                    Untouched s₀
                      { s with
                        disk :=
                          some
                            (writeFile s.stagingBytes file
                              reservation.offset batch io).2 } :=
                  { config := hSame.config
                    stats := hSame.stats
                    depths := hSame.depths }
                cases (writeFile s.stagingBytes file
                    reservation.offset batch io).1 with
                | ok _ =>
                    apply Triple.value
                    exact fun t hT =>
                      ⟨hT ▸ hNext, trivial⟩
                | error error =>
                    exact
                      (storeFallback_untouched plan batch
                        error).pre fun t hT => hT ▸ hNext

/- Nor the disk mode. -/
theorem storeDisk_untouched
    (depth : Nat)
    (batch : List CandidateMeta)
    (io : IoOutcome) :
    Triple (Untouched s₀) (storeDisk depth batch io)
      (fun storage s =>
        Untouched s₀ s ∧ storage.Sized batch.length)
      (fun _ _ => True) := by
  apply Triple.read
  intro s hSame
  apply Triple.update_bind
  apply Triple.seq
    ((orThrow_spec _ _).stop_mono fun _ _ _ => trivial)
  intro _
  apply Triple.value
  rintro t ⟨-, rfl⟩
  exact
    ⟨{ config := hSame.config
       stats := hSame.stats
       depths := hSame.depths }, trivial⟩

/- Nor any mode: the books are kept by `record` alone. -/
theorem storeBatch_untouched
    (mode : HistoryMode)
    (depth : Nat)
    (batch : List CandidateMeta)
    (io : IoOutcome) :
    Triple (Untouched s₀) (storeBatch mode depth batch io)
      (fun storage s =>
        Untouched s₀ s ∧ storage.Sized batch.length)
      (fun _ _ => True) := by
  cases mode with
  | ram =>
      exact
        Triple.value fun t hSame =>
          ⟨hSame, List.length_map entry⟩
  | disk => exact storeDisk_untouched depth batch io
  | staticHybrid =>
      exact storeStaticHybrid_untouched depth batch io

----------------
-- Recording A Batch
----------------

/- A counter that did not overflow. -/
theorem addBytes_eq_ok
    {total bytes sum : Nat}
    {name : String}
    (hAdd : addBytes total bytes name = .ok sum) :
    sum = total + bytes := by
  rw [addBytes, checkedAdd] at hAdd
  split at hAdd
  · next hSum =>
      split at hSum
      · cases hSum
        cases hAdd
        rfl
      · cases hSum
  · cases hAdd

/- A depth that was empty gets its bytes in one tier. -/
theorem Accounts.record
    (hAccounts : Accounts sizes s)
    {depth count received : Nat}
    {storage : Storage}
    (hEmpty : s.depths[depth]? = some none)
    (hSized : storage.Sized count) :
    Accounts (sizes ++ [count])
      { s with
        stats :=
          if storage.inRam then
            { s.stats with
              bytesReceived := received
              bytesStored := s.stats.bytesStored + count * 16
              bytesStoredRam :=
                s.stats.bytesStoredRam + count * 16 }
          else
            { s.stats with
              bytesReceived := received
              bytesStored := s.stats.bytesStored + count * 16
              bytesStoredDisk :=
                s.stats.bytesStoredDisk + count * 16 }
        depths := s.depths.set depth (some ⟨count, storage⟩) } := by
  have hRam :=
    sum_map_set ramCount (some ⟨count, storage⟩) s.depths depth
      none hEmpty
  have hDisk :=
    sum_map_set diskCount (some ⟨count, storage⟩) s.depths depth
      none hEmpty
  have hOldRam := hAccounts.ram
  have hOldDisk := hAccounts.disk
  have hTiers := hAccounts.tiers
  have hWritten := hAccounts.written
  have hSum : (sizes ++ [count]).sum = sizes.sum + count := by
    rw [List.sum_append, List.sum_singleton]
  have hCounted :
      ∀ (index length : Nat) (data : List Entry),
        (s.depths.set depth (some ⟨count, storage⟩))[index]? =
          some (some ⟨length, .ram data⟩) →
        length = data.length := by
    intro index length data hAt
    by_cases hEq : depth = index
    · subst hEq
      rw [List.getElem?_set_self
        (List.getElem?_eq_some_iff.mp hEmpty).1] at hAt
      cases hAt
      exact hSized.symm
    · rw [List.getElem?_set_ne hEq] at hAt
      exact hAccounts.counted index length data hAt
  cases hTier : storage.inRam with
  | true =>
      simp only [ramCount, diskCount, hTier, if_true] at hRam hDisk
      simp only [if_true]
      exact
        { ram := by dsimp only; omega
          disk := by dsimp only; omega
          tiers := by dsimp only; omega
          written := by dsimp only; omega
          counted := hCounted }
  | false =>
      simp only [ramCount, diskCount, hTier, Bool.false_eq_true,
        if_false] at hRam hDisk
      simp only [Bool.false_eq_true, if_false]
      exact
        { ram := by dsimp only; omega
          disk := by dsimp only; omega
          tiers := by dsimp only; omega
          written := by dsimp only; omega
          counted := hCounted }

/- A recorded layer is in the accounts. -/
theorem record_accounts
    (hAccounts : Accounts sizes s)
    {depth count : Nat}
    {storage : Storage}
    (hEmpty : s.depths[depth]? = some none)
    (hSized : storage.Sized count) :
    Triple (fun t => t = s) (record depth count storage)
      (fun _ t =>
        Accounts (sizes ++ [count]) t ∧ t.config = s.config)
      (fun _ _ => True) := by
  apply Triple.seq
    ((orThrow_spec s _).stop_mono fun _ _ _ => trivial)
  intro stored
  apply Triple.read
  rintro t ⟨hStored, rfl⟩
  apply Triple.seq
    ((orThrow_spec t _).stop_mono fun _ _ _ => trivial)
  intro candidates
  apply Triple.seq
    (((orThrow_spec t _).pre fun u hU => hU.2).stop_mono
      fun _ _ _ => trivial)
  intro received
  apply Triple.pre (P := fun u => u = t) _ fun u hU => hU.2
  apply Triple.update_bind
  apply Triple.seq
    ((orThrow_spec _ _).stop_mono fun _ _ _ => trivial)
  intro total
  apply Triple.update
  rintro u ⟨hTotal, rfl⟩
  have hBytes := mul_eq_ok hStored
  have hSum := addBytes_eq_ok hTotal
  subst hBytes hSum
  refine ⟨?_, ?_⟩
  · exact hAccounts.record hEmpty hSized
  · rfl

----------------
-- Pruning
----------------

/- The compaction keeps the length of its list. -/
theorem length_compact_entries
    (s : CompactState)
    (olds : List Nat) :
    (olds.foldl compactStep s).entries.length =
      s.entries.length := by
  induction olds generalizing s with
  | nil => rfl
  | cons old olds ih =>
      rw [List.foldl_cons, ih, compactStep]
      split
      · exact List.length_set
      · rfl

/- A prune shortens the lower layer only. -/
theorem pruneLayers_lengths
    {previous current previous' current' : List Entry}
    (hPrune :
      pruneLayers previous current = .ok (previous', current')) :
    previous'.length ≤ previous.length ∧
      current'.length = current.length := by
  rw [pruneLayers] at hPrune
  rcases except_bind_eq_ok hPrune with ⟨marked, -, hPrune⟩
  cases hPrune
  have hLength :=
    length_compact_entries ⟨marked, previous, 0⟩
      (List.range previous.length)
  refine ⟨?_, List.length_map _⟩
  rw [List.length_take, hLength]
  exact Nat.min_le_right _ _

/- A layer in RAM, in the store. -/
theorem ramLayer_eq_some
    {depth count : Nat}
    {data : List Entry}
    (hLayer : ramLayer s depth = some (count, data)) :
    s.depths[depth]? = some (some ⟨count, .ram data⟩) := by
  rw [ramLayer] at hLayer
  split at hLayer
  · next hDepth =>
      cases hLayer
      exact hDepth
  · cases hLayer

/- What a pair loses goes from the memory tier to the pruned. -/
theorem Accounts.prune
    (hAccounts : Accounts sizes s)
    {index length count : Nat}
    {previous current previous' current' : List Entry}
    (hIndex : 0 < index)
    (hPrevious :
      s.depths[index - 1]? = some (some ⟨length, .ram previous⟩))
    (hCurrent :
      s.depths[index]? = some (some ⟨count, .ram current⟩))
    (hShorter : previous'.length ≤ previous.length)
    (hSame : current'.length = current.length) :
    Accounts sizes
      { s with
        depths :=
          (s.depths.set (index - 1)
              (some ⟨previous'.length, .ram previous'⟩)).set
            index (some ⟨count, .ram current'⟩)
        stats :=
          { s.stats with
            bytesStored :=
              s.stats.bytesStored -
                (previous.length - previous'.length) * 16
            bytesStoredRam :=
              s.stats.bytesStoredRam -
                (previous.length - previous'.length) * 16
            bytesPruned :=
              s.stats.bytesPruned +
                (previous.length - previous'.length) * 16 } } := by
  have hLength := hAccounts.counted _ _ _ hPrevious
  have hCount := hAccounts.counted _ _ _ hCurrent
  have hLt := (List.getElem?_eq_some_iff.mp hCurrent).1
  have hCurrent' :
      (s.depths.set (index - 1)
          (some ⟨previous'.length, .ram previous'⟩))[index]? =
        some (some ⟨count, .ram current⟩) := by
    rw [List.getElem?_set_ne (by omega)]
    exact hCurrent
  have hRam :=
    sum_map_set ramCount
      (some ⟨previous'.length, .ram previous'⟩) _ _ _ hPrevious
  have hDisk :=
    sum_map_set diskCount
      (some ⟨previous'.length, .ram previous'⟩) _ _ _ hPrevious
  have hRam' :=
    sum_map_set ramCount (some ⟨count, .ram current'⟩) _ _ _
      hCurrent'
  have hDisk' :=
    sum_map_set diskCount (some ⟨count, .ram current'⟩) _ _ _
      hCurrent'
  simp only [ramCount, diskCount, Storage.inRam, if_true]
    at hRam hDisk hRam' hDisk'
  have hOldRam := hAccounts.ram
  have hOldDisk := hAccounts.disk
  have hTiers := hAccounts.tiers
  have hWritten := hAccounts.written
  exact
    { ram := by dsimp only; omega
      disk := by dsimp only; omega
      tiers := by dsimp only; omega
      written := by dsimp only; omega
      counted := fun i l data hAt => by
        by_cases hEq : index = i
        · subst hEq
          rw [List.getElem?_set_self
            (by rw [List.length_set]; exact hLt)] at hAt
          cases hAt
          rw [hSame]
          exact hCount
        · rw [List.getElem?_set_ne hEq] at hAt
          by_cases hBelow : index - 1 = i
          · subst hBelow
            rw [List.getElem?_set_self (by omega)] at hAt
            cases hAt
            rfl
          · rw [List.getElem?_set_ne hBelow] at hAt
            exact hAccounts.counted i l data hAt }

/- A prune moves bytes from the stored to the pruned. -/
theorem pruneAt_accounts
    (index : Nat)
    (hIndex : 0 < index) :
    Triple (Accounts sizes) (pruneAt index)
      (fun _ => Accounts sizes) (fun _ _ => True) := by
  apply Triple.read
  intro s hAccounts
  split
  · next length previous count current hPrevious hCurrent =>
      apply Triple.seq
        ((orThrow_spec s _).stop_mono fun _ _ _ => trivial)
      rintro ⟨previous', current'⟩
      apply Triple.update
      rintro t ⟨hPrune, rfl⟩
      rcases pruneLayers_lengths hPrune with ⟨hShorter, hSame⟩
      exact
        hAccounts.prune hIndex (ramLayer_eq_some hPrevious)
          (ramLayer_eq_some hCurrent) hShorter hSame
  · exact Triple.value fun t hT => hT ▸ hAccounts

/- So do all of them. -/
theorem pruneFrom_accounts
    (index : Nat) :
    Triple (Accounts sizes) (pruneFrom index)
      (fun _ => Accounts sizes) (fun _ _ => True) := by
  induction index with
  | zero => exact Triple.value fun _ hAccounts => hAccounts
  | succ index ih =>
      apply Triple.seq
        (pruneAt_accounts (index + 1) index.succ_pos)
      intro _
      exact ih

----------------
-- Writes
----------------

/- A write adds its layer to the accounts. -/
theorem write_accounts
    (depth : Nat)
    (batch : List CandidateMeta)
    (io : IoOutcome) :
    Triple (Accounts sizes) (write depth batch io)
      (fun _ => Accounts (sizes ++ [batch.length]))
      (fun _ _ => True) := by
  apply Triple.read
  intro s hAccounts
  split
  · exact Triple.stop fun _ _ => trivial
  · exact Triple.stop fun _ _ => trivial
  · next hEmpty =>
      apply Triple.seq
        ((orThrow_spec s _).stop_mono fun _ _ _ => trivial)
      intro _
      apply Triple.pre (P := fun t => t = s) _ fun t hT => hT.2
      have hStore :=
        @storeBatch_untouched s s.config.mode depth batch io
      have hStart :
          Triple (fun t => t = s)
            (storeBatch s.config.mode depth batch io)
            (fun storage t =>
              Untouched s t ∧ storage.Sized batch.length)
            (fun _ _ => True) :=
        hStore.pre fun t hT => hT ▸ Untouched.refl s
      apply Triple.seq hStart
      intro storage
      apply Triple.of_state
      rintro t ⟨hSame, hSized⟩
      have hAccounts' : Accounts sizes t :=
        { ram := by
            rw [hSame.stats, hSame.depths]
            exact hAccounts.ram
          disk := by
            rw [hSame.stats, hSame.depths]
            exact hAccounts.disk
          tiers := by
            rw [hSame.stats]
            exact hAccounts.tiers
          written := by
            rw [hSame.stats]
            exact hAccounts.written
          counted := by
            rw [hSame.depths]
            exact hAccounts.counted }
      apply Triple.seq
        (record_accounts hAccounts'
          (hSame.depths ▸ hEmpty) hSized)
      intro _
      apply Triple.branch
      · intro _
        apply Triple.read
        rintro u ⟨hRecorded, -⟩
        exact
          (pruneFrom_accounts _).pre fun v hV => hV ▸ hRecorded
      · intro _
        exact Triple.value fun u hRecorded => hRecorded.1

/- The writes one after the other; the first error ends them. -/
def writes (calls : List WriteCall) : StoreM PUnit :=
  forEach calls fun call => write call.depth call.batch call.io

/- The lengths of the batches. -/
def batchSizes (batches : List (List CandidateMeta)) : List Nat :=
  batches.map List.length

/- An empty store has empty accounts. -/
theorem Accounts.of_empty
    (hDepths : ∀ depth ∈ store.depths, depth = none)
    (hRam : store.stats.bytesStoredRam = 0)
    (hDisk : store.stats.bytesStoredDisk = 0)
    (hStored : store.stats.bytesStored = 0)
    (hPruned : store.stats.bytesPruned = 0) :
    Accounts [] store := by
  have hNone :
      ∀ g : Option Depth → Nat,
        g none = 0 → (store.depths.map g).sum = 0 := by
    intro g hZero
    apply List.sum_eq_zero
    intro n hn
    rcases List.mem_map.mp hn with ⟨depth, hDepth, rfl⟩
    rw [hDepths depth hDepth]
    exact hZero
  exact
    { ram := by rw [hRam, hNone ramCount rfl]
      disk := by rw [hDisk, hNone diskCount rfl]
      tiers := by rw [hRam, hDisk, hStored]
      written := by rw [hStored, hPruned]; rfl
      counted := fun index length data hAt =>
        nomatch hDepths _ (List.mem_of_getElem? hAt) }

/- The first store is empty. -/
theorem emptyStore_accounts
    (config : HistoryConfig)
    (pinned staging : Nat) :
    Accounts [] (emptyStore config pinned staging) :=
  Accounts.of_empty
    (fun _ hDepth => (List.mem_replicate.mp hDepth).2)
    rfl rfl rfl rfl

/- So is one with arenas. -/
theorem withArenas_accounts
    {store' : HistoryStore}
    {pinned staging : Nat}
    (hAccounts : Accounts [] store)
    (hNew : withArenas store pinned staging = .ok store') :
    Accounts [] store' := by
  rw [withArenas] at hNew
  rcases except_bind_eq_ok hNew with ⟨_, -, hNew⟩
  rcases except_bind_eq_ok hNew with ⟨_, -, hNew⟩
  rcases except_bind_eq_ok hNew with ⟨_, -, hNew⟩
  rcases except_bind_eq_ok hNew with ⟨_, -, hNew⟩
  rcases except_bind_eq_ok hNew with ⟨_, -, hNew⟩
  rcases except_bind_eq_ok hNew with ⟨_, -, hNew⟩
  rcases except_bind_eq_ok hNew with ⟨_, -, hNew⟩
  cases hNew
  exact
    { ram := hAccounts.ram
      disk := hAccounts.disk
      tiers := hAccounts.tiers
      written := hAccounts.written
      counted := hAccounts.counted }

/- So the books start balanced. -/
theorem new_accounts
    {config : HistoryConfig}
    (hNew : HistoryStore.new config = .ok store) :
    Accounts [] store := by
  rw [HistoryStore.new] at hNew
  split at hNew
  · cases hNew
  · rcases except_bind_eq_ok hNew with ⟨_, -, hNew⟩
    rcases except_bind_eq_ok hNew with ⟨pinned, -, hNew⟩
    rcases except_bind_eq_ok hNew with ⟨_, -, hNew⟩
    rcases except_bind_eq_ok hNew with ⟨staging, -, hNew⟩
    have hEmpty := emptyStore_accounts config pinned staging
    split at hNew
    · exact withArenas_accounts hEmpty hNew
    · cases hNew
      exact hEmpty

/- With `rest` to come, the writes before it are on the books. -/
def Recorded
    (calls rest : List WriteCall)
    (store : HistoryStore) : Prop :=
  ∃ done,
    done ++ rest = calls ∧
    Accounts (batchSizes (done.map WriteCall.batch)) store

/- The writes, by the step. -/
theorem writes_accounts (calls : List WriteCall) :
    Triple (Recorded calls calls) (writes calls)
      (fun _ => Recorded calls []) (fun _ _ => True) := by
  apply Triple.forEach
  rintro call rest -
  apply Triple.of_state
  rintro s ⟨done, hSplit, hAccounts⟩
  apply
    (write_accounts call.depth call.batch call.io).conseq
  · exact fun t hT => hT ▸ hAccounts
  · intro _ t hNext
    refine ⟨done ++ [call], ?_, ?_⟩
    · rw [List.append_assoc]
      exact hSplit
    · rw [batchSizes, List.map_append, List.map_append]
      exact hNext
  · exact fun _ _ _ => trivial

/- Successful writes leave balanced books, in any mode. -/
theorem writes_balanced
    {config : HistoryConfig}
    {store' : HistoryStore}
    {calls : List WriteCall}
    (hNew : HistoryStore.new config = .ok store)
    (hWrites : writes calls store = .ok ⟨⟩ store') :
    store'.books.Balanced
      (batchSizes (calls.map WriteCall.batch)) := by
  have hEnd :=
    writes_accounts calls store ⟨[], rfl, new_accounts hNew⟩
  rw [hWrites] at hEnd
  rcases hEnd with ⟨done, hDone, hAccounts⟩
  rw [List.append_nil] at hDone
  exact (hDone ▸ hAccounts).balanced

end History

end BeamSearch
