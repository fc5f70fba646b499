import BeamSearch.Dispatcher.BankPhases

/-
  The books of the banks.

  Whatever the device does, a bank is processing exactly while
  it is listed, pending or on a Stream 4 slot; no bank holds
  more rows than its capacity; and its dirty count is the number
  of rows appended since its last pass.

  Main declarations:
    * `BankBooks`
    * `BankBooks.collect`, `BankBooks.buildReadyQueue`
    * `BankBooks.deviceEvent`
-/

namespace BeamSearch

open Stream3

namespace Dispatcher

----------------
-- The Books
----------------

/- Does stream 3 still have to build its list? -/
def Stream3Stage.builds : Stream3Stage → Bool
  | .idle => false
  | .collectLocal => true
  | .buildReadyQueue _ _ => true
  | .collectRemote _ => false

/-
  The banks that wait for a slot: listed, pending, or taken from
  the pending queue by the host.
-/
def Rank.waiting (taken : List Nat) (rank : Rank) : List Nat :=
  rank.device.readyShardList ++ (rank.stream4.pending ++ taken)

/- What device, queue and history say about the same banks. -/
structure BankBooks
    (config : DispatchConfig)
    (taken : List Nat)
    (phases : Nat → ShardPhase)
    (rank : Rank) : Prop where
  replay : bankReplay rank.trace.bankEvents = some phases
  nodup : (rank.waiting taken).Nodup
  waiting :
    ∀ physical,
      physical ∈ rank.waiting taken ↔
        phases (logicalShard physical) = .listed physical
  sorting :
    ∀ physical,
      (∃ slot, rank.device.slotJob slot = some physical) ↔
        phases (logicalShard physical) = .sorting physical
  jobs :
    ∀ slot other physical,
      rank.device.slotJob slot = some physical →
        rank.device.slotJob other = some physical →
          slot = other
  processing :
    ∀ physical,
      rank.device.banks.processingFlag physical ≠ 0 ↔
        (phases (logicalShard physical)).holds physical
  dirty :
    ∀ physical,
      rank.device.banks.dirtyCount physical =
        unsortedRows rank.trace.bankEvents physical
  capacity :
    ∀ physical,
      rank.device.banks.cleanCount physical +
          rank.device.banks.dirtyCount physical ≤
        config.geometry.shardCapacity
  inside :
    ∀ physical,
      (phases (logicalShard physical)).holds physical →
        physical < config.storageShardCount
  building :
    rank.device.stage.builds = true →
      rank.device.readyShardList = []
  kept : rank.trace.listOverwritten = false
  copied :
    ∀ physical,
      rank.copies.clean physical ≤ config.geometry.shardCapacity

variable {config : DispatchConfig}
variable {taken : List Nat}
variable {phases : Nat → ShardPhase}
variable {rank : Rank}

/- No count of a bank leaves its word, and neither does the sum. -/
theorem BankBooks.existing_eq
    (hBooks : BankBooks config taken phases rank)
    (physical : Nat) :
    rank.device.banks.existing physical =
      rank.device.banks.cleanCount physical +
        rank.device.banks.dirtyCount physical :=
  Nat.mod_eq_of_lt
    ((hBooks.capacity physical).trans_lt config.capacity_lt)

/- The books do not look at the rest of the state. -/
theorem BankBooks.congr
    {a b : Rank}
    (hBooks : BankBooks config taken phases a)
    (hDevice : b.device = a.device)
    (hPending : b.stream4.pending = a.stream4.pending)
    (hEvents : b.trace.bankEvents = a.trace.bankEvents)
    (hKept : b.trace.listOverwritten = a.trace.listOverwritten)
    (hCopies : b.copies = a.copies) :
    BankBooks config taken phases b := by
  have hWaiting : b.waiting taken = a.waiting taken := by
    rw [Rank.waiting, hDevice, hPending, Rank.waiting]
  constructor
  case replay =>
    rw [hEvents]
    exact hBooks.replay
  case nodup =>
    rw [hWaiting]
    exact hBooks.nodup
  case waiting =>
    rw [hWaiting]
    exact hBooks.waiting
  case sorting =>
    rw [hDevice]
    exact hBooks.sorting
  case jobs =>
    rw [hDevice]
    exact hBooks.jobs
  case processing =>
    rw [hDevice]
    exact hBooks.processing
  case dirty =>
    rw [hDevice, hEvents]
    exact hBooks.dirty
  case capacity =>
    rw [hDevice]
    exact hBooks.capacity
  case inside => exact hBooks.inside
  case building =>
    rw [hDevice]
    exact hBooks.building
  case kept =>
    rw [hKept]
    exact hBooks.kept
  case copied =>
    rw [hCopies]
    exact hBooks.copied

/- A shard without a processing bank is idle. -/
theorem BankBooks.idle_of_not_processing
    {shard : Nat}
    (hBooks : BankBooks config taken phases rank)
    (hProcessing :
      logicalProcessing rank.device.banks shard = false) :
    phases shard = .idle := by
  rw [not_logicalProcessing_iff] at hProcessing
  have hNone :
      ∀ physical, ¬ (phases shard).holds physical := by
    intro physical hHolds
    have hShard := logicalShard_of_holds hBooks.replay hHolds
    have hFlag :=
      hProcessing (physical % shardBufferCount)
        (mod_shardBufferCount_lt physical)
    rw [← hShard, physicalShard_logicalShard] at hFlag
    rw [← hShard] at hHolds
    exact (hBooks.processing physical).mpr hHolds hFlag
  cases hPhase : phases shard with
  | idle => rfl
  | listed physical =>
      exact absurd (Or.inl hPhase) (hNone physical)
  | sorting physical =>
      exact absurd (Or.inr hPhase) (hNone physical)

----------------
-- Appends
----------------

/- No bank takes more rows than it has room for. -/
theorem appendedRows_le_available
    {geometry : ShardGeometry}
    {banks : Banks}
    {groups : List (Nat × Nat)}
    (hSorted : groups.Pairwise fun a b => a.1 < b.1)
    (hFits : ∀ group ∈ groups, GroupFits geometry banks group)
    (physical : Nat) :
    appendedRows geometry banks groups physical ≤
      banks.available geometry.shardCapacity physical := by
  induction groups using List.reverseRecOn with
  | nil => exact Nat.zero_le _
  | append_singleton groups last ih =>
      rw [List.pairwise_append] at hSorted
      have hBefore :=
        ih hSorted.1 fun group hMem =>
          hFits group (List.mem_append_left _ hMem)
      have hOther :
          ∀ group ∈ groups, group.1 ≠ last.1 :=
        fun group hMem =>
          Nat.ne_of_lt (hSorted.2.2 group hMem last (by simp))
      rw [appendedRows_append]
      by_cases hHere : appendBank geometry banks last = physical
      · have hRoom := hFits last (by simp)
        rw [GroupFits,
          (bestBuffer_spec geometry banks last.1 last.2).2.1,
          ← appendBank] at hRoom
        rw [if_pos hHere, ← hHere, appendedRows_eq_zero hOther]
        omega
      · rw [if_neg hHere]
        exact hBefore

/- Rows are appended to banks at rest only. -/
theorem BankBooks.collect
    (hBooks : BankBooks config taken phases rank)
    (rows : List Nat) :
    BankBooks config taken phases (rank.collect config rows) := by
  have hSorted := groupsOf_sorted config.geometry.shardCount rows
  have hInside :
      ∀ group ∈ groupsOf config.geometry.shardCount rows,
        group.1 < config.geometry.shardCount :=
    fun group hMem => (mem_groupsOf_iff.mp hMem).1
  have hAppended :=
    partitionAppend_spec config.geometry rank.device.banks
      rank.device.fatalErrorFlag hSorted hInside
  rw [Rank.collect]
  dsimp only
  generalize
    partitionAppend config.geometry rank.device.banks
        (groupsOf config.geometry.shardCount rows)
        rank.device.fatalErrorFlag =
      result at hAppended ⊢
  cases hFatal : result.fatal with
  | true =>
      have hDirty := hAppended.stopped hFatal
      constructor
      case replay => exact hBooks.replay
      case nodup => exact hBooks.nodup
      case waiting => exact hBooks.waiting
      case sorting => exact hBooks.sorting
      case jobs => exact hBooks.jobs
      case processing =>
        dsimp only
        rw [hAppended.processing]
        exact hBooks.processing
      case dirty =>
        dsimp only
        rw [hDirty]
        exact hBooks.dirty
      case capacity =>
        intro physical
        dsimp only
        rw [hAppended.clean, hDirty]
        exact hBooks.capacity physical
      case inside => exact hBooks.inside
      case building => exact hBooks.building
      case kept => exact hBooks.kept
      case copied => exact hBooks.copied
  | false =>
      have hFits :
          ∀ group ∈ groupsOf config.geometry.shardCount rows,
            GroupFits config.geometry rank.device.banks
              group := by
        intro group hMem
        by_contra hNot
        have hStop :=
          hAppended.fatal.mpr (Or.inr ⟨group, hMem, hNot⟩)
        rw [hFatal] at hStop
        cases hStop
      have hFree :
          ∀ group ∈ groupsOf config.geometry.shardCount rows,
            ¬ (phases
                (logicalShard
                  (appendBank config.geometry rank.device.banks
                    group))).holds
              (appendBank config.geometry rank.device.banks
                group) := by
        intro group hMem hHolds
        have hRoom := hFits group hMem
        have hPos := (mem_groupsOf_iff.mp hMem).2.2
        rw [GroupFits,
          (bestBuffer_spec _ _ group.1 group.2).2.1,
          ← appendBank] at hRoom
        exact
          (hBooks.processing _).mpr hHolds
            (processingFlag_eq_zero_of_available
              (lt_of_lt_of_le (Nat.pos_of_ne_zero hPos) hRoom))
      have hMost :
          ∀ physical,
            rank.device.banks.cleanCount physical +
                  rank.device.banks.dirtyCount physical +
                appendedRows config.geometry rank.device.banks
                  (groupsOf config.geometry.shardCount rows)
                  physical ≤
              config.geometry.shardCapacity := by
        intro physical
        have hBefore := hBooks.capacity physical
        have hRoom :=
          appendedRows_le_available hSorted hFits physical
        have hRest :=
          existing_add_available_le
            ((hBooks.existing_eq physical).trans_le hBefore)
        rw [hBooks.existing_eq] at hRest
        omega
      have hDirty :
          ∀ physical,
            result.banks.dirtyCount physical =
              rank.device.banks.dirtyCount physical +
                appendedRows config.geometry rank.device.banks
                  (groupsOf config.geometry.shardCount rows)
                  physical := by
        intro physical
        have hWord := config.capacity_lt
        have hBelow := hMost physical
        exact hAppended.dirty hFatal physical (by omega)
      constructor
      case replay =>
        exact bankReplay_appendEvents hBooks.replay hFree
      case nodup => exact hBooks.nodup
      case waiting => exact hBooks.waiting
      case sorting => exact hBooks.sorting
      case jobs => exact hBooks.jobs
      case processing =>
        dsimp only
        rw [hAppended.processing]
        exact hBooks.processing
      case dirty =>
        intro physical
        dsimp only
        rw [if_neg Bool.false_ne_true, hDirty,
          unsortedRows_appendEvents, hBooks.dirty]
      case capacity =>
        intro physical
        dsimp only
        rw [hAppended.clean, hDirty, ← Nat.add_assoc]
        exact hMost physical
      case inside => exact hBooks.inside
      case building => exact hBooks.building
      case kept => exact hBooks.kept
      case copied => exact hBooks.copied

----------------
-- Finished Sorts
----------------

/- A job that ends leaves its shard at rest. -/
theorem BankBooks.complete
    {slot physical : Nat}
    (hBooks : BankBooks config taken phases rank)
    (hJob : rank.device.slotJob slot = some physical)
    (cleanCount : Nat) :
    BankBooks config taken
      (Function.update phases (logicalShard physical) .idle)
      (rank.deviceEvent config
        (.stream4Complete slot cleanCount)) := by
  have hSorting :
      phases (logicalShard physical) = .sorting physical :=
    (hBooks.sorting physical).mp ⟨slot, hJob⟩
  have hOther :
      ∀ other, other ≠ physical →
        ((Function.update phases (logicalShard physical) .idle
            (logicalShard other)).holds other ↔
          (phases (logicalShard other)).holds other) := by
    intro other hNe
    apply or_congr
    · apply update_phase_iff
      · rw [hSorting]
        simp
      · simp
    · apply update_phase_iff
      · rw [hSorting]
        simpa using hNe.symm
      · simp
  have hHere :
      ¬ (Function.update phases (logicalShard physical) .idle
          (logicalShard physical)).holds physical := by
    rw [Function.update_self]
    rintro (hListed | hSorts)
    · cases hListed
    · cases hSorts
  rw [Rank.deviceEvent, hJob]
  constructor
  case replay =>
    apply bankReplay_snoc hBooks.replay
    rw [bankStep, if_pos hSorting]
  case nodup => exact hBooks.nodup
  case waiting =>
    intro other
    refine (hBooks.waiting other).trans (update_phase_iff ?_ ?_).symm
    · rw [hSorting]
      simp
    · simp
  case sorting =>
    intro other
    dsimp only
    by_cases hNe : other = physical
    · subst hNe
      rw [Function.update_self]
      refine iff_of_false ?_ (by simp)
      rintro ⟨busy, hBusy⟩
      by_cases hSlot : busy = slot
      · rw [hSlot, Function.update_self] at hBusy
        cases hBusy
      · rw [Function.update_of_ne hSlot] at hBusy
        exact hSlot (hBooks.jobs busy slot other hBusy hJob)
    · have hPhase :
          phases (logicalShard physical) ≠ .sorting other := by
        rw [hSorting]
        simpa using Ne.symm hNe
      have hIdle : ShardPhase.idle ≠ .sorting other := by simp
      refine Iff.trans ?_ (update_phase_iff hPhase hIdle).symm
      refine Iff.trans ?_ (hBooks.sorting other)
      refine exists_congr fun busy => ?_
      by_cases hSlot : busy = slot
      · rw [hSlot, Function.update_self, hJob]
        exact
          iff_of_false (by simp) fun hSame =>
            hNe (Option.some.inj hSame).symm
      · rw [Function.update_of_ne hSlot]
  case jobs =>
    intro busy busy' other hBusy hBusy'
    dsimp only at hBusy hBusy'
    by_cases hSlot : busy = slot
    · rw [hSlot, Function.update_self] at hBusy
      cases hBusy
    by_cases hSlot' : busy' = slot
    · rw [hSlot', Function.update_self] at hBusy'
      cases hBusy'
    rw [Function.update_of_ne hSlot] at hBusy
    rw [Function.update_of_ne hSlot'] at hBusy'
    exact hBooks.jobs busy busy' other hBusy hBusy'
  case processing =>
    intro other
    dsimp only [completeBank]
    by_cases hNe : other = physical
    · subst hNe
      rw [Function.update_self]
      exact iff_of_false (fun hNot => hNot rfl) hHere
    · rw [Function.update_of_ne hNe, hOther other hNe]
      exact hBooks.processing other
  case dirty =>
    intro other
    dsimp only [completeBank]
    rw [unsortedRows_snoc, unsortedStep]
    by_cases hNe : other = physical
    · subst hNe
      rw [Function.update_self, if_pos rfl]
    · rw [Function.update_of_ne hNe, if_neg (Ne.symm hNe)]
      exact hBooks.dirty other
  case capacity =>
    intro other
    have hMost := hBooks.capacity other
    dsimp only [completeBank]
    by_cases hNe : other = physical
    · subst hNe
      rw [Function.update_self, Function.update_self,
        hBooks.existing_eq]
      omega
    · rw [Function.update_of_ne hNe, Function.update_of_ne hNe]
      exact hMost
  case inside =>
    intro other hHolds
    by_cases hNe : other = physical
    · subst hNe
      exact absurd hHolds hHere
    · exact hBooks.inside other ((hOther other hNe).mp hHolds)
  case building => exact hBooks.building
  case kept => exact hBooks.kept
  case copied => exact hBooks.copied

----------------
-- Ready Lists
----------------

/- The shards of a list occur in the order they were looked at. -/
theorem readyBanks_shards
    (sizes : ReadyQueueSizes)
    (banks : Banks)
    (shards : List Nat) :
    ((readyBanks sizes banks shards).map logicalShard).Sublist
      shards := by
  induction shards with
  | nil => exact List.Sublist.refl _
  | cons shard shards ih =>
      rw [readyBanks, List.filterMap_cons]
      cases hSelect : selectReady sizes banks shard with
      | none => exact List.Sublist.cons _ ih
      | some selected =>
          have hShard :=
            logicalShard_physicalShard shard
              (selectReady_spec hSelect).2.buffer
          rw [Option.map_some, List.map_cons, hShard]
          exact List.Sublist.cons_cons _ ih

/- The kernel lists banks at rest, each once. -/
theorem BankBooks.buildReadyQueue
    (hBooks : BankBooks config taken phases rank)
    (hConsumed : rank.device.readyShardList = [])
    (forceFlush : Bool)
    (receiveReserve : Nat) :
    ∃ after,
      BankBooks config taken after
        ((rank.buildReadyQueue config forceFlush
          receiveReserve).setStage .idle) := by
  let sizes := readyQueueSizes config forceFlush receiveReserve
  have hBuilt := buildReadyShardQueue_spec sizes rank.device.banks
  let shards := List.range config.geometry.shardCount
  let listed := readyBanks sizes rank.device.banks shards
  have hList :
      (buildReadyShardQueue sizes
        rank.device.banks).readyShardList = listed := hBuilt.list
  have hNodup : (listed.map logicalShard).Nodup :=
    (readyBanks_shards sizes rank.device.banks shards).nodup
      List.nodup_range
  have hIdle :
      ∀ physical ∈ listed,
        phases (logicalShard physical) = .idle := by
    intro physical hMem
    rcases mem_readyBanks_iff.mp hMem with
      ⟨shard, -, selected, hSelect, rfl⟩
    rcases selectReady_spec hSelect with ⟨hFree, hSelectable⟩
    rw [logicalShard_physicalShard shard hSelectable.buffer]
    exact hBooks.idle_of_not_processing hFree
  rcases bankReplay_listed hBooks.replay hNodup hIdle with
    ⟨after, hReplay, hListed, hKept⟩
  have hSame :
      ∀ physical, physical ∉ listed.map logicalShard →
        after physical = phases physical := hKept
  have hNew :
      ∀ physical,
        physical ∈ listed ∨
            phases (logicalShard physical) = .listed physical ↔
          after (logicalShard physical) = .listed physical := by
    intro physical
    by_cases hShard :
        logicalShard physical ∈ listed.map logicalShard
    · rcases List.mem_map.mp hShard with ⟨bank, hBank, hEq⟩
      have hHere := hListed bank hBank
      rw [hEq] at hHere
      have hBefore := hIdle bank hBank
      rw [hEq] at hBefore
      rw [hHere, hBefore]
      constructor
      · rintro (hMem | hNot)
        · rw [List.inj_on_of_nodup_map hNodup hBank hMem hEq]
        · cases hNot
      · intro hEqual
        rw [← ShardPhase.listed.inj hEqual]
        exact Or.inl hBank
    · rw [hSame _ hShard, or_iff_right]
      intro hMem
      exact hShard (List.mem_map_of_mem hMem)
  have hSorting :
      ∀ physical,
        after (logicalShard physical) = .sorting physical ↔
          phases (logicalShard physical) = .sorting physical := by
    intro physical
    by_cases hShard :
        logicalShard physical ∈ listed.map logicalShard
    · rcases List.mem_map.mp hShard with ⟨bank, hBank, hEq⟩
      have hHere := hListed bank hBank
      have hBefore := hIdle bank hBank
      rw [hEq] at hHere hBefore
      rw [hHere, hBefore]
      exact iff_of_false nofun nofun
    · rw [hSame _ hShard]
  have hHolds :
      ∀ physical,
        (after (logicalShard physical)).holds physical ↔
          physical ∈ listed ∨
            (phases (logicalShard physical)).holds physical := by
    intro physical
    rw [ShardPhase.holds, ← hNew, hSorting, ShardPhase.holds,
      or_assoc]
  have hBefore :
      rank.waiting taken = rank.stream4.pending ++ taken := by
    rw [Rank.waiting, hConsumed, List.nil_append]
  have hWaiting :
      ((rank.buildReadyQueue config forceFlush
          receiveReserve).setStage .idle).waiting taken =
        listed ++ (rank.stream4.pending ++ taken) := by
    rw [← hList]
    rfl
  have hFlag :
      ∀ physical,
        (buildReadyShardQueue sizes
            rank.device.banks).banks.processingFlag physical =
          if physical ∈ listed then 1
          else rank.device.banks.processingFlag physical :=
    hBuilt.processing
  refine ⟨after, ?_⟩
  constructor
  case replay =>
    have hEvents :
        ((rank.buildReadyQueue config forceFlush
            receiveReserve).setStage .idle).trace.bankEvents =
          rank.trace.bankEvents ++ listed.map .listed := by
      rw [← hList]
      rfl
    rw [hEvents]
    exact hReplay
  case nodup =>
    rw [hWaiting, ← hBefore, List.nodup_append]
    refine ⟨List.Nodup.of_map _ hNodup, hBooks.nodup, ?_⟩
    rintro physical hMem other hWaits rfl
    have hPhase := (hBooks.waiting physical).mp hWaits
    rw [hIdle physical hMem] at hPhase
    cases hPhase
  case waiting =>
    intro physical
    rw [hWaiting, ← hBefore, List.mem_append,
      hBooks.waiting physical]
    exact hNew physical
  case sorting =>
    intro physical
    exact (hBooks.sorting physical).trans (hSorting physical).symm
  case jobs => exact hBooks.jobs
  case processing =>
    intro physical
    refine Iff.trans ?_ (hHolds physical).symm
    dsimp only [Rank.setStage, Rank.buildReadyQueue]
    rw [show readyQueueSizes config forceFlush receiveReserve =
      sizes from rfl, hFlag physical]
    by_cases hMem : physical ∈ listed
    · rw [if_pos hMem]
      exact iff_of_true Nat.one_ne_zero (Or.inl hMem)
    · rw [if_neg hMem, hBooks.processing physical,
        or_iff_right hMem]
  case dirty =>
    intro physical
    dsimp only [Rank.setStage, Rank.buildReadyQueue]
    rw [hBuilt.dirty, hBooks.dirty physical]
    refine (unsortedRows_append_of_same _ ?_).symm
    intro event hMem rows
    rcases List.mem_map.mp hMem with ⟨bank, -, rfl⟩
    rfl
  case capacity =>
    intro physical
    dsimp only [Rank.setStage, Rank.buildReadyQueue]
    rw [hBuilt.clean, hBuilt.dirty]
    exact hBooks.capacity physical
  case inside =>
    intro physical hPhase
    rcases (hHolds physical).mp hPhase with hMem | hOld
    · rcases mem_readyBanks_iff.mp hMem with
        ⟨shard, hShard, selected, hSelect, rfl⟩
      exact
        physicalShard_lt (List.mem_range.mp hShard)
          (selectReady_spec hSelect).2.buffer
    · exact hBooks.inside physical hOld
  case building => exact nofun
  case kept =>
    dsimp only [Rank.setStage, Rank.buildReadyQueue]
    rw [hBooks.kept, hConsumed]
    rfl
  case copied => exact hBooks.copied

----------------
-- Steps Of The Device
----------------

/- A new stage of stream 3 that does not build over a list. -/
theorem BankBooks.setStage
    {stage : Stream3Stage}
    (hBooks : BankBooks config taken phases rank)
    (hBuilding :
      stage.builds = true → rank.device.readyShardList = []) :
    BankBooks config taken phases (rank.setStage stage) where
  replay := hBooks.replay
  nodup := hBooks.nodup
  waiting := hBooks.waiting
  sorting := hBooks.sorting
  jobs := hBooks.jobs
  processing := hBooks.processing
  dirty := hBooks.dirty
  capacity := hBooks.capacity
  inside := hBooks.inside
  building := hBuilding
  kept := hBooks.kept
  copied := hBooks.copied

/- Every step of the device keeps the books. -/
theorem BankBooks.deviceEvent
    (hBooks : BankBooks config taken phases rank)
    (event : DeviceEvent) :
    ∃ after,
      BankBooks config taken after
        (rank.deviceEvent config event) := by
  cases event with
  | stream4Complete slot cleanCount =>
      cases hJob : rank.device.slotJob slot with
      | none =>
          rw [Rank.deviceEvent, hJob]
          exact ⟨phases, hBooks⟩
      | some physical =>
          exact ⟨_, hBooks.complete hJob cleanCount⟩
  | ringComplete ring =>
      exact
        ⟨phases, hBooks.replay, hBooks.nodup, hBooks.waiting,
          hBooks.sorting, hBooks.jobs, hBooks.processing,
          hBooks.dirty, hBooks.capacity, hBooks.inside,
          hBooks.building, hBooks.kept, hBooks.copied⟩
  | stream3Advance rows sendTotal =>
      rw [Rank.deviceEvent]
      cases hStage : rank.device.stage with
      | idle => exact ⟨phases, hBooks⟩
      | collectLocal =>
          have hConsumed : rank.device.readyShardList = [] :=
            hBooks.building (by rw [hStage]; rfl)
          have hCollect :=
            hBooks.collect
              (rows.take config.stream3BatchCandidates)
          have hStaged :
              BankBooks config taken phases
                ((rank.collect config
                    (rows.take
                      config.stream3BatchCandidates)).setStage
                  (.buildReadyQueue false
                    config.receiveReserve)) :=
            hCollect.setStage fun _ => hConsumed
          exact
            ⟨phases, hStaged.replay, hStaged.nodup,
              hStaged.waiting, hStaged.sorting, hStaged.jobs,
              hStaged.processing, hStaged.dirty,
              hStaged.capacity, hStaged.inside,
              hStaged.building, hStaged.kept, hStaged.copied⟩
      | buildReadyQueue forceFlush receiveReserve =>
          have hConsumed : rank.device.readyShardList = [] :=
            hBooks.building (by rw [hStage]; rfl)
          exact
            hBooks.buildReadyQueue hConsumed forceFlush
              receiveReserve
      | collectRemote remote =>
          exact
            ⟨phases,
              (hBooks.collect remote).setStage fun hBuilds => by
                cases hBuilds⟩
  | templates ring busy =>
      exact
        ⟨phases, hBooks.replay, hBooks.nodup, hBooks.waiting,
          hBooks.sorting, hBooks.jobs, hBooks.processing,
          hBooks.dirty, hBooks.capacity, hBooks.inside,
          hBooks.building, hBooks.kept, hBooks.copied⟩
  | stop =>
      exact
        ⟨phases, hBooks.replay, hBooks.nodup, hBooks.waiting,
          hBooks.sorting, hBooks.jobs, hBooks.processing,
          hBooks.dirty, hBooks.capacity, hBooks.inside,
          hBooks.building, hBooks.kept, hBooks.copied⟩

/- The device keeps the books while the host does not look. -/
theorem BankBooks.observed
    (hBooks : BankBooks config taken phases rank) :
    ∃ after,
      BankBooks config taken after (rank.observed config) := by
  have hEvents :
      ∀ (events : List DeviceEvent) (rank : Rank) phases,
        BankBooks config taken phases rank →
          ∃ after,
            BankBooks config taken after
              (events.foldl (Rank.deviceEvent config) rank) := by
    intro events
    induction events with
    | nil => exact fun _ phases hOld => ⟨phases, hOld⟩
    | cons event events ih =>
        intro rank phases hOld
        rcases hOld.deviceEvent event with ⟨middle, hStep⟩
        exact ih _ middle hStep
  rw [Rank.observed]
  cases rank.schedule with
  | nil => exact ⟨phases, hBooks⟩
  | cons events schedule =>
      rcases hEvents events rank phases hBooks with
        ⟨after, hAfter⟩
      exact ⟨after, hAfter.congr rfl rfl rfl rfl rfl⟩

/- At the start all is at rest. -/
theorem initialRank_bankBooks
    (config : DispatchConfig)
    (schedule : List (List DeviceEvent))
    (replies : List Reply) :
    BankBooks config [] (fun _ => .idle)
      (initialRank config schedule replies) where
  replay := rfl
  nodup := List.nodup_nil
  waiting _ := iff_of_false List.not_mem_nil nofun
  sorting _ := by simp [initialRank]
  jobs _ _ _ hJob := nomatch hJob
  processing _ :=
    iff_of_false (fun hNot => hNot rfl) (by simp [ShardPhase.holds])
  dirty _ := rfl
  capacity _ := Nat.zero_le _
  inside _ hHolds := by simp [ShardPhase.holds] at hHolds
  building _ := rfl
  kept := rfl
  copied _ := Nat.zero_le _

end Dispatcher

end BeamSearch
