import Mathlib.Data.List.Perm.Subperm
import BeamSearch.Dispatcher.Banks

/-
  The books of the Stream 4 slots.

  Every slot is free, busy or in the hand of the host. A busy
  slot has a shard of its own, which the host knows as running,
  and the device sorts on busy slots only. What is pending is
  what is marked as queued.

  Main declarations:
    * `SlotBooks`, `Stream4Books`
    * `Stream4Books.completeSlot`
    * `Stream4Books.takeLaunchable`
    * `Stream4Books.launch`
    * `Stream4Books.consume`
-/

namespace BeamSearch

open Stream3

namespace Dispatcher

variable {slot physical : Nat}

----------------
-- The Books
----------------

/- `held` are the slots and `taken` the banks in the hand. -/
structure SlotBooks
    (config : DispatchConfig)
    (held taken : List Nat)
    (rank : Rank) : Prop where
  slots :
    (held ++
        (rank.stream4.freeSlots ++ rank.stream4.busySlots)).Perm
      (List.range config.stream4ActiveSortSlots)
  jobs :
    ∀ slot physical,
      rank.device.slotJob slot = some physical →
        slot ∈ rank.stream4.busySlots ∧
          rank.stream4.slotShard slot = physical
  inside :
    ∀ slot ∈ rank.stream4.busySlots,
      rank.stream4.slotShard slot < config.storageShardCount
  running :
    ∀ slot ∈ rank.stream4.busySlots,
      rank.stream4.logicalRunning
            (logicalShard (rank.stream4.slotShard slot)) =
          true ∧
        rank.stream4.logicalRunningShard
            (logicalShard (rank.stream4.slotShard slot)) =
          rank.stream4.slotShard slot
  distinct :
    ∀ slot ∈ rank.stream4.busySlots,
      ∀ other ∈ rank.stream4.busySlots,
        logicalShard (rank.stream4.slotShard slot) =
            logicalShard (rank.stream4.slotShard other) →
          slot = other
  busy :
    ∀ shard, rank.stream4.logicalRunning shard = true →
      ∃ slot ∈ rank.stream4.busySlots,
        logicalShard (rank.stream4.slotShard slot) = shard
  queued :
    ∀ physical,
      rank.stream4.pendingQueued physical = true ↔
        physical ∈ rank.stream4.pending
  idle :
    ∀ physical ∈ taken,
      rank.stream4.logicalRunning (logicalShard physical) = false

/- The books of the banks and of the slots together. -/
structure Stream4Books
    (config : DispatchConfig)
    (held taken : List Nat)
    (rank : Rank) : Prop where
  banks : ∃ phases, BankBooks config taken phases rank
  slots : SlotBooks config held taken rank

variable {config : DispatchConfig}
variable {held taken : List Nat}
variable {rank : Rank}

----------------
-- The Device
----------------

/- The device works for the slots but keeps no queue. -/
theorem deviceEvent_stream4
    (config : DispatchConfig)
    (rank : Rank)
    (event : DeviceEvent) :
    (rank.deviceEvent config event).stream4 = rank.stream4 ∧
      ∀ slot physical,
        (rank.deviceEvent config event).device.slotJob slot =
            some physical →
          rank.device.slotJob slot = some physical := by
  cases event with
  | stream4Complete done cleanCount =>
      rw [Rank.deviceEvent]
      cases hJob : rank.device.slotJob done with
      | none => exact ⟨rfl, fun _ _ hSome => hSome⟩
      | some bank =>
          refine ⟨rfl, ?_⟩
          intro slot physical hSome
          dsimp only at hSome
          by_cases hHere : slot = done
          · rw [hHere, Function.update_self] at hSome
            cases hSome
          · rw [Function.update_of_ne hHere] at hSome
            exact hSome
  | ringComplete ring => exact ⟨rfl, fun _ _ hSome => hSome⟩
  | stream3Advance rows sendTotal =>
      rw [Rank.deviceEvent]
      cases rank.device.stage with
      | idle => exact ⟨rfl, fun _ _ hSome => hSome⟩
      | collectLocal => exact ⟨rfl, fun _ _ hSome => hSome⟩
      | buildReadyQueue forceFlush receiveReserve =>
          exact ⟨rfl, fun _ _ hSome => hSome⟩
      | collectRemote remote =>
          exact ⟨rfl, fun _ _ hSome => hSome⟩
  | templates ring busy => exact ⟨rfl, fun _ _ hSome => hSome⟩
  | stop => exact ⟨rfl, fun _ _ hSome => hSome⟩

/- So it is while the host does not look. -/
theorem observed_stream4
    (config : DispatchConfig)
    (rank : Rank) :
    (rank.observed config).stream4 = rank.stream4 ∧
      ∀ slot physical,
        (rank.observed config).device.slotJob slot =
            some physical →
          rank.device.slotJob slot = some physical := by
  have hEvents :
      ∀ (events : List DeviceEvent) (rank : Rank),
        (events.foldl (Rank.deviceEvent config) rank).stream4 =
            rank.stream4 ∧
          ∀ slot physical,
            (events.foldl (Rank.deviceEvent config)
                  rank).device.slotJob slot = some physical →
              rank.device.slotJob slot = some physical := by
    intro events
    induction events with
    | nil => exact fun _ => ⟨rfl, fun _ _ hSome => hSome⟩
    | cons event events ih =>
        intro rank
        rcases deviceEvent_stream4 config rank event with
          ⟨hSame, hJobs⟩
        rcases ih (rank.deviceEvent config event) with
          ⟨hRest, hRestJobs⟩
        exact
          ⟨hRest.trans hSame, fun slot physical hSome =>
            hJobs slot physical (hRestJobs slot physical hSome)⟩
  rw [Rank.observed]
  cases rank.schedule with
  | nil => exact ⟨rfl, fun _ _ hSome => hSome⟩
  | cons events schedule => exact hEvents events rank

/- The same host, and a device that sorts no more than before. -/
theorem SlotBooks.congr
    {a b : Rank}
    (hBooks : SlotBooks config held taken a)
    (hStream4 : b.stream4 = a.stream4)
    (hJobs :
      ∀ slot physical,
        b.device.slotJob slot = some physical →
          a.device.slotJob slot = some physical) :
    SlotBooks config held taken b := by
  constructor
  case slots =>
    rw [hStream4]
    exact hBooks.slots
  case jobs =>
    intro slot physical hJob
    rw [hStream4]
    exact hBooks.jobs slot physical (hJobs slot physical hJob)
  case inside =>
    rw [hStream4]
    exact hBooks.inside
  case running =>
    rw [hStream4]
    exact hBooks.running
  case distinct =>
    rw [hStream4]
    exact hBooks.distinct
  case busy =>
    rw [hStream4]
    exact hBooks.busy
  case queued =>
    rw [hStream4]
    exact hBooks.queued
  case idle =>
    rw [hStream4]
    exact hBooks.idle

/- The books read five parts of the rank. -/
theorem Stream4Books.congr
    {a b : Rank}
    (hBooks : Stream4Books config held taken a)
    (hDevice : b.device = a.device)
    (hStream4 : b.stream4 = a.stream4)
    (hEvents : b.trace.bankEvents = a.trace.bankEvents)
    (hKept : b.trace.listOverwritten = a.trace.listOverwritten)
    (hCopies : b.copies = a.copies) :
    Stream4Books config held taken b where
  banks := by
    rcases hBooks.banks with ⟨phases, hBanks⟩
    exact
      ⟨phases,
        hBanks.congr hDevice (by rw [hStream4]) hEvents hKept
          hCopies⟩
  slots :=
    hBooks.slots.congr hStream4 fun slot physical hJob => by
      rw [← hDevice]
      exact hJob

/- The device keeps both books. -/
theorem Stream4Books.observed
    (hBooks : Stream4Books config held taken rank) :
    Stream4Books config held taken (rank.observed config) where
  banks := by
    rcases hBooks.banks with ⟨phases, hBanks⟩
    exact hBanks.observed
  slots :=
    hBooks.slots.congr (observed_stream4 config rank).1
      (observed_stream4 config rank).2

----------------
-- Slots Come And Go
----------------

/- Held, free and busy slots are different slots. -/
theorem SlotBooks.nodup
    (hBooks : SlotBooks config held taken rank) :
    (held ++
      (rank.stream4.freeSlots ++
        rank.stream4.busySlots)).Nodup :=
  hBooks.slots.nodup_iff.mpr List.nodup_range

/- The slots that work are different slots. -/
theorem SlotBooks.busy_nodup
    (hBooks : SlotBooks config held taken rank) :
    rank.stream4.busySlots.Nodup :=
  hBooks.nodup.sublist
    ((List.sublist_append_right _ _).trans
      (List.sublist_append_right _ _))

/- Without busy slots no shard is running. -/
theorem SlotBooks.not_running
    (hBooks : SlotBooks config held taken rank)
    (hNone : rank.stream4.busySlots = [])
    (shard : Nat) :
    rank.stream4.logicalRunning shard = false := by
  by_contra hRunning
  rcases hBooks.busy shard (by simpa using hRunning) with
    ⟨slot, hBusy, -⟩
  rw [hNone] at hBusy
  exact absurd hBusy List.not_mem_nil

/- There is a slot, so some slot is free, busy or held. -/
theorem SlotBooks.busy_ne_nil
    (hBooks : SlotBooks config [] taken rank)
    (hSlots : 0 < config.stream4ActiveSortSlots)
    (hFree : rank.stream4.freeSlots = []) :
    rank.stream4.busySlots ≠ [] := by
  intro hBusy
  have hLength := hBooks.slots.length_eq
  rw [hFree, hBusy, List.length_range] at hLength
  exact absurd hLength.symm (Nat.ne_of_gt hSlots)

/- The host takes note of a finished slot. -/
def Rank.completeSlot
    (config : DispatchConfig)
    (slot : Nat)
    (rank : Rank) : Rank :=
  let rank := rank.dropBusySlot slot
  rank.setStream4
    ((rank.stream4.stopRunning config
      (logicalShard (rank.stream4.slotShard slot))).free config
        slot)

/- The completion of a slot whose shard is known as running. -/
theorem markComplete_of_running
    {queue : Stream4Queue}
    (hInside : queue.slotShard slot < config.storageShardCount)
    (hRunning :
      queue.logicalRunning (logicalShard (queue.slotShard slot)) =
        true)
    (hShard :
      queue.logicalRunningShard
          (logicalShard (queue.slotShard slot)) =
        queue.slotShard slot) :
    queue.markComplete config slot =
      .ok
        ((queue.stopRunning config
          (logicalShard (queue.slotShard slot))).free config
            slot) := by
  have hLogical :
      logicalShard (queue.slotShard slot) <
        config.geometry.shardCount := by
    rw [DispatchConfig.storageShardCount,
      ShardGeometry.storageShardCount] at hInside
    rw [logicalShard]
    exact Nat.div_lt_of_lt_mul (by rwa [Nat.mul_comm] at hInside)
  rw [Stream4Queue.markComplete, if_neg (by omega),
    if_neg (by omega), if_neg]
  rw [hRunning, hShard]
  simp

/- A slot with a job is completed without a fault. -/
theorem markComplete_eq
    (hBooks : SlotBooks config held taken rank)
    (hBusy : slot ∈ rank.stream4.busySlots) :
    (rank.dropBusySlot slot).stream4.markComplete config slot =
      .ok (rank.completeSlot config slot).stream4 :=
  markComplete_of_running (hBooks.inside slot hBusy)
    (hBooks.running slot hBusy).1 (hBooks.running slot hBusy).2

/- The completed slot goes to the free ones. -/
theorem SlotBooks.completeSlot
    (hBooks : SlotBooks config held taken rank)
    (hBusy : slot ∈ rank.stream4.busySlots)
    (hDone : rank.device.slotJob slot = none) :
    SlotBooks config held taken
      (rank.completeSlot config slot) := by
  have hNodup := hBooks.busy_nodup
  have hMem :
      ∀ other,
        other ∈ rank.stream4.busySlots.erase slot ↔
          other ≠ slot ∧ other ∈ rank.stream4.busySlots :=
    fun other => hNodup.mem_erase_iff
  have hShard :
      ∀ other ∈ rank.stream4.busySlots.erase slot,
        Function.update rank.stream4.slotShard slot
            config.storageShardCount other =
          rank.stream4.slotShard other := fun other hOther =>
    Function.update_of_ne ((hMem other).mp hOther).1 _ _
  have hLogical :
      ∀ other ∈ rank.stream4.busySlots.erase slot,
        logicalShard (rank.stream4.slotShard other) ≠
          logicalShard (rank.stream4.slotShard slot) := by
    intro other hOther hSame
    rcases (hMem other).mp hOther with ⟨hNe, hOld⟩
    exact hNe (hBooks.distinct other hOld slot hBusy hSame)
  constructor
  case slots =>
    dsimp only [Rank.completeSlot, Rank.setStream4,
      Stream4Queue.free, Stream4Queue.stopRunning,
      Rank.dropBusySlot]
    refine List.Perm.trans (List.Perm.append_left _ ?_) hBooks.slots
    rw [List.append_assoc]
    apply List.Perm.append_left
    exact (List.perm_cons_erase hBusy).symm
  case jobs =>
    intro other physical hJob
    rcases hBooks.jobs other physical hJob with ⟨hOld, hSame⟩
    have hNe : other ≠ slot := by
      rintro rfl
      rw [show rank.device.slotJob other = some physical from hJob]
        at hDone
      cases hDone
    exact
      ⟨(hMem other).mpr ⟨hNe, hOld⟩,
        (hShard other ((hMem other).mpr ⟨hNe, hOld⟩)).trans hSame⟩
  case inside =>
    intro other hOther
    exact
      (hShard other hOther).trans_lt
        (hBooks.inside other ((hMem other).mp hOther).2)
  case running =>
    intro other hOther
    have hNe := hLogical other hOther
    have hOld :=
      hBooks.running other ((hMem other).mp hOther).2
    dsimp only [Rank.completeSlot, Rank.setStream4,
      Stream4Queue.free, Stream4Queue.stopRunning,
      Rank.dropBusySlot]
    rw [hShard other hOther, Function.update_of_ne hNe,
      Function.update_of_ne hNe]
    exact hOld
  case distinct =>
    intro other hOther third hThird hSame
    dsimp only [Rank.completeSlot, Rank.setStream4,
      Stream4Queue.free, Stream4Queue.stopRunning,
      Rank.dropBusySlot] at hSame
    rw [hShard other hOther, hShard third hThird] at hSame
    exact
      hBooks.distinct other ((hMem other).mp hOther).2 third
        ((hMem third).mp hThird).2 hSame
  case busy =>
    intro shard hRunning
    dsimp only [Rank.completeSlot, Rank.setStream4,
      Stream4Queue.free, Stream4Queue.stopRunning,
      Rank.dropBusySlot] at hRunning
    by_cases hHere :
        shard = logicalShard (rank.stream4.slotShard slot)
    · rw [hHere, Function.update_self] at hRunning
      cases hRunning
    · rw [Function.update_of_ne hHere] at hRunning
      rcases hBooks.busy shard hRunning with
        ⟨other, hOld, hSame⟩
      have hNe : other ≠ slot := by
        rintro rfl
        exact hHere hSame.symm
      have hOther := (hMem other).mpr ⟨hNe, hOld⟩
      refine ⟨other, hOther, ?_⟩
      dsimp only [Rank.completeSlot, Rank.setStream4,
        Stream4Queue.free, Stream4Queue.stopRunning,
        Rank.dropBusySlot]
      rw [hShard other hOther]
      exact hSame
  case queued => exact hBooks.queued
  case idle =>
    intro physical hTaken
    dsimp only [Rank.completeSlot, Rank.setStream4,
      Stream4Queue.free, Stream4Queue.stopRunning,
      Rank.dropBusySlot]
    by_cases hHere :
        logicalShard physical =
          logicalShard (rank.stream4.slotShard slot)
    · rw [hHere, Function.update_self]
    · rw [Function.update_of_ne hHere]
      exact hBooks.idle physical hTaken

/- Both books through a completion. -/
theorem Stream4Books.completeSlot
    (hBooks : Stream4Books config held taken rank)
    (hBusy : slot ∈ rank.stream4.busySlots)
    (hDone : rank.device.slotJob slot = none) :
    Stream4Books config held taken
      (rank.completeSlot config slot) where
  banks := by
    rcases hBooks.banks with ⟨phases, hBanks⟩
    exact ⟨phases, hBanks.congr rfl rfl rfl rfl rfl⟩
  slots := hBooks.slots.completeSlot hBusy hDone

/- A step of the host's queue that loses no bank. -/
theorem Stream4Books.of_queue
    {after : Rank}
    {held' taken' : List Nat}
    (hBooks : Stream4Books config held taken rank)
    (hSame : after = rank.setStream4 after.stream4)
    (hWaiting :
      (after.stream4.pending ++ taken').Perm
        (rank.stream4.pending ++ taken))
    (hSlots : SlotBooks config held' taken' after) :
    Stream4Books config held' taken' after where
  slots := hSlots
  banks := by
    rcases hBooks.banks with ⟨phases, hBanks⟩
    have hPerm :
        ((rank.setStream4 after.stream4).waiting taken').Perm
          (rank.waiting taken) :=
      List.Perm.append_left _ hWaiting
    rw [hSame]
    exact
      ⟨phases, hBanks.replay,
        hPerm.nodup_iff.mpr hBanks.nodup,
        fun physical =>
          hPerm.mem_iff.trans (hBanks.waiting physical),
        hBanks.sorting, hBanks.jobs, hBanks.processing,
        hBanks.dirty, hBanks.capacity, hBanks.inside,
        hBanks.building, hBanks.kept, hBanks.copied⟩

/- The host takes a free slot into its hand. -/
theorem Stream4Books.dropFreeSlot
    {rest : List Nat}
    (hBooks : Stream4Books config held taken rank)
    (hFree : rank.stream4.freeSlots = slot :: rest) :
    Stream4Books config (slot :: held) taken
      rank.dropFreeSlot := by
  refine hBooks.of_queue ?_ ?_ ?_
  · rfl
  · exact List.Perm.refl _
  have hSlots := hBooks.slots
  refine
    ⟨?_, hSlots.jobs, hSlots.inside, hSlots.running,
      hSlots.distinct, hSlots.busy, hSlots.queued, hSlots.idle⟩
  have hPerm := hSlots.slots
  rw [hFree] at hPerm
  dsimp only [Rank.dropFreeSlot]
  rw [hFree, List.tail_cons]
  exact List.perm_middle.symm.trans hPerm

/- The host puts a slot back. -/
theorem Stream4Books.returnFreeSlot
    (hBooks : Stream4Books config (slot :: held) taken rank) :
    Stream4Books config held taken
      (rank.returnFreeSlot slot) := by
  refine hBooks.of_queue ?_ ?_ ?_
  · rfl
  · exact List.Perm.refl _
  have hSlots := hBooks.slots
  exact
    ⟨List.perm_middle.trans hSlots.slots, hSlots.jobs,
      hSlots.inside, hSlots.running, hSlots.distinct,
      hSlots.busy, hSlots.queued, hSlots.idle⟩

/- The count of jobs is in neither book. -/
theorem Stream4Books.clearThresholdJobs
    (hBooks : Stream4Books config held taken rank) :
    Stream4Books config held taken rank.clearThresholdJobs := by
  refine hBooks.of_queue ?_ ?_ ?_
  · rfl
  · exact List.Perm.refl _
  have hSlots := hBooks.slots
  exact
    ⟨hSlots.slots, hSlots.jobs, hSlots.inside, hSlots.running,
      hSlots.distinct, hSlots.busy, hSlots.queued, hSlots.idle⟩

----------------
-- Taking A Pending Bank
----------------

/- What a search of the pending queue finds. -/
inductive TakeSpec
    (config : DispatchConfig)
    (queue : Stream4Queue)
    (pending : List Nat) :
    Except Exception (Option Nat × Stream4Queue) → Prop where
  | none
      (hRunning :
        ∀ physical ∈ pending,
          queue.logicalRunning (logicalShard physical) = true) :
      TakeSpec config queue pending
        (.ok (none, { queue with pending := pending }))
  | some
      (physical : Nat)
      (before after : List Nat)
      (hPending : pending = before ++ physical :: after)
      (hIdle :
        queue.logicalRunning (logicalShard physical) = false) :
      TakeSpec config queue pending
        (.ok
          (some physical,
            { queue with
              pending := before ++ after
              pendingQueued :=
                Function.update queue.pendingQueued physical
                  false }))

/- A bank inside belongs to a shard inside. -/
theorem logicalShard_lt
    (hInside : physical < config.storageShardCount) :
    logicalShard physical < config.geometry.shardCount := by
  rw [DispatchConfig.storageShardCount,
    ShardGeometry.storageShardCount, Nat.mul_comm] at hInside
  exact Nat.div_lt_of_lt_mul hInside

/-
  The walk skips the banks whose shard runs, and keeps their
  order.
-/
theorem takeLaunchable_spec
    {queue : Stream4Queue}
    {passed rest : List Nat}
    (hPassed :
      ∀ physical ∈ passed,
        queue.logicalRunning (logicalShard physical) = true)
    (hInside :
      ∀ physical ∈ rest, physical < config.storageShardCount)
    (hQueued :
      ∀ physical ∈ rest, queue.pendingQueued physical = true) :
    TakeSpec config queue (passed ++ rest)
      (queue.takeLaunchable config passed rest) := by
  induction rest generalizing passed with
  | nil =>
      rw [List.append_nil, Stream4Queue.takeLaunchable]
      exact .none hPassed
  | cons physical rest ih =>
      have hHere := hInside physical List.mem_cons_self
      have hLogical := logicalShard_lt hHere
      rw [Stream4Queue.takeLaunchable, if_neg (by omega),
        if_neg (by omega),
        if_neg (by simp [hQueued physical])]
      cases hRunning :
          queue.logicalRunning (logicalShard physical) with
      | false =>
          rw [if_neg Bool.false_ne_true]
          exact .some physical passed rest rfl hRunning
      | true =>
          rw [if_pos rfl]
          have hMore :
              ∀ other ∈ passed ++ [physical],
                queue.logicalRunning (logicalShard other) =
                  true := by
            intro other hMem
            rcases List.mem_append.mp hMem with hOld | hNew
            · exact hPassed other hOld
            · rw [List.mem_singleton.mp hNew]
              exact hRunning
          have hRest :=
            ih hMore
              (fun other hMem =>
                hInside other (List.mem_cons_of_mem _ hMem))
              fun other hMem =>
                hQueued other (List.mem_cons_of_mem _ hMem)
          rw [List.append_assoc, List.singleton_append] at hRest
          exact hRest

/- The whole pending queue is searched. -/
theorem Stream4Books.takeSpec
    (hBooks : Stream4Books config held taken rank) :
    TakeSpec config rank.stream4 rank.stream4.pending
      (rank.stream4.takeLaunchable config []
        rank.stream4.pending) := by
  rcases hBooks.banks with ⟨phases, hBanks⟩
  have hWaits :
      ∀ physical ∈ rank.stream4.pending,
        physical ∈ rank.waiting taken := fun physical hMem =>
    List.mem_append_right _ (List.mem_append_left _ hMem)
  have hInside :
      ∀ physical ∈ rank.stream4.pending,
        physical < config.storageShardCount :=
    fun physical hMem =>
      hBanks.inside physical
        (Or.inl
          ((hBanks.waiting physical).mp (hWaits physical hMem)))
  have hPassed :
      ∀ physical ∈ ([] : List Nat),
        rank.stream4.logicalRunning (logicalShard physical) =
          true := nofun
  exact
    takeLaunchable_spec hPassed hInside fun physical hMem =>
      (hBooks.slots.queued physical).mpr hMem

/-
  A pending bank is taken: it is in the caller's hand until it
  is launched.
-/
theorem Stream4Books.take
    {before after : List Nat}
    (hBooks : Stream4Books config held [] rank)
    (hPending :
      rank.stream4.pending = before ++ physical :: after)
    (hIdle :
      rank.stream4.logicalRunning (logicalShard physical) =
        false) :
    Stream4Books config held [physical]
      (rank.setStream4
        { rank.stream4 with
          pending := before ++ after
          pendingQueued :=
            Function.update rank.stream4.pendingQueued physical
              false }) := by
  have hPerm :
      (before ++ after ++ [physical]).Perm
        rank.stream4.pending := by
    rw [hPending, List.append_assoc]
    exact
      List.Perm.append_left _ List.perm_append_comm
  have hNodup : (before ++ after ++ [physical]).Nodup := by
    rcases hBooks.banks with ⟨phases, hBanks⟩
    have hWaiting := hBanks.nodup
    rw [Rank.waiting, List.append_nil] at hWaiting
    exact
      hPerm.nodup_iff.mpr
        (hWaiting.sublist (List.sublist_append_right _ _))
  refine hBooks.of_queue ?_ ?_ ?_
  · rfl
  · rwa [List.append_nil]
  have hSlots := hBooks.slots
  refine
    ⟨hSlots.slots, hSlots.jobs, hSlots.inside, hSlots.running,
      hSlots.distinct, hSlots.busy, ?_, ?_⟩
  · intro other
    dsimp only [Rank.setStream4]
    have hMem : other ∈ rank.stream4.pending ↔
        other ∈ before ++ after ∨ other = physical := by
      rw [← hPerm.mem_iff, List.mem_append,
        List.mem_singleton]
    by_cases hHere : other = physical
    · rw [hHere, Function.update_self]
      refine iff_of_false Bool.false_ne_true fun hOld => ?_
      exact
        (List.nodup_append.mp hNodup).2.2 physical hOld physical
          (List.mem_singleton_self _) rfl
    · rw [Function.update_of_ne hHere, hSlots.queued other,
        hMem, or_iff_left hHere]
  · intro other hMem
    rw [List.mem_singleton.mp hMem]
    exact hIdle

----------------
-- Launching A Sort
----------------

/- A slot in the caller's hand has no job. -/
theorem SlotBooks.not_busy_of_held
    (hBooks : SlotBooks config (slot :: held) taken rank) :
    slot ∉ rank.stream4.busySlots := by
  intro hBusy
  have hNodup := hBooks.nodup
  rw [List.cons_append] at hNodup
  exact
    (List.nodup_cons.mp hNodup).1
      (List.mem_append_right _ (List.mem_append_right _ hBusy))

/- The held slot gets the job. -/
theorem SlotBooks.launch
    (event : BankEvent)
    (hBooks : SlotBooks config (slot :: held) taken rank)
    (hInside : physical < config.storageShardCount)
    (hIdle :
      rank.stream4.logicalRunning (logicalShard physical) =
        false) :
    SlotBooks config held []
      (rank.launchStream4 event physical slot) := by
  have hNew := hBooks.not_busy_of_held
  have hShard :
      ∀ other ∈ rank.stream4.busySlots,
        Function.update rank.stream4.slotShard slot physical
            other =
          rank.stream4.slotShard other := by
    intro other hOther
    apply Function.update_of_ne
    rintro rfl
    exact hNew hOther
  have hLogical :
      ∀ other ∈ rank.stream4.busySlots,
        logicalShard (rank.stream4.slotShard other) ≠
          logicalShard physical := by
    intro other hOther hSame
    have hRunning := (hBooks.running other hOther).1
    rw [hSame, hIdle] at hRunning
    cases hRunning
  constructor
  case slots =>
    dsimp only [Rank.launchStream4, Stream4Queue.run]
    refine List.Perm.trans ?_ hBooks.slots
    rw [← List.append_assoc rank.stream4.freeSlots,
      ← List.append_assoc held]
    exact List.perm_append_singleton _ _
  case jobs =>
    intro other bank hJob
    dsimp only [Rank.launchStream4, Stream4Queue.run] at hJob ⊢
    by_cases hHere : other = slot
    · rw [hHere, Function.update_self] at hJob
      rw [hHere, Function.update_self]
      exact ⟨by simp, Option.some.inj hJob⟩
    · rw [Function.update_of_ne hHere] at hJob
      rcases hBooks.jobs other bank hJob with ⟨hOld, hSame⟩
      rw [Function.update_of_ne hHere]
      exact ⟨List.mem_append_left _ hOld, hSame⟩
  case inside =>
    intro other hMem
    dsimp only [Rank.launchStream4, Stream4Queue.run]
    rcases List.mem_append.mp hMem with hOld | hHere
    · rw [hShard other hOld]
      exact hBooks.inside other hOld
    · rw [List.mem_singleton.mp hHere, Function.update_self]
      exact hInside
  case running =>
    intro other hMem
    dsimp only [Rank.launchStream4, Stream4Queue.run]
    rcases List.mem_append.mp hMem with hOld | hHere
    · have hNe := hLogical other hOld
      rw [hShard other hOld, Function.update_of_ne hNe,
        Function.update_of_ne hNe]
      exact hBooks.running other hOld
    · rw [List.mem_singleton.mp hHere, Function.update_self,
        Function.update_self, Function.update_self]
      exact ⟨rfl, rfl⟩
  case distinct =>
    intro other hOther third hThird hSame
    dsimp only [Rank.launchStream4, Stream4Queue.run] at hSame
    rcases List.mem_append.mp hOther with hOld | hHere
    · rcases List.mem_append.mp hThird with hOld' | hHere'
      · rw [hShard other hOld, hShard third hOld'] at hSame
        exact hBooks.distinct other hOld third hOld' hSame
      · rw [List.mem_singleton.mp hHere', Function.update_self,
          hShard other hOld] at hSame
        exact absurd hSame (hLogical other hOld)
    · rcases List.mem_append.mp hThird with hOld' | hHere'
      · rw [List.mem_singleton.mp hHere, Function.update_self,
          hShard third hOld'] at hSame
        exact absurd hSame.symm (hLogical third hOld')
      · rw [List.mem_singleton.mp hHere,
          List.mem_singleton.mp hHere']
  case busy =>
    intro shard hRunning
    dsimp only [Rank.launchStream4, Stream4Queue.run]
      at hRunning ⊢
    by_cases hHere : shard = logicalShard physical
    · refine ⟨slot, by simp, ?_⟩
      rw [Function.update_self]
      exact hHere.symm
    · rw [Function.update_of_ne hHere] at hRunning
      rcases hBooks.busy shard hRunning with
        ⟨other, hOld, hSame⟩
      refine ⟨other, List.mem_append_left _ hOld, ?_⟩
      rw [hShard other hOld]
      exact hSame
  case queued => exact hBooks.queued
  case idle => exact nofun

/- A sort starts on a slot that sorts nothing. -/
theorem BankBooks.startSort
    {owned : Rank}
    {taken' : List Nat}
    {phases : Nat → ShardPhase}
    {event : BankEvent}
    (hBooks : BankBooks config taken phases rank)
    (hDevice :
      owned.device =
        { rank.device with
          banks :=
            { rank.device.banks with
              processingFlag :=
                owned.device.banks.processingFlag } })
    (hTrace : owned.trace = rank.trace)
    (hCopies : owned.copies = rank.copies)
    (hFlags :
      ∀ other,
        owned.device.banks.processingFlag other ≠ 0 ↔
          other = physical ∨
            rank.device.banks.processingFlag other ≠ 0)
    (hStep :
      bankStep phases event =
        some
          (Function.update phases (logicalShard physical)
            (.sorting physical)))
    (hEvent :
      ∀ other rows, unsortedStep other rows event = rows)
    (hOther :
      ∀ other, other ≠ physical →
        ¬ (phases (logicalShard physical)).holds other)
    (hIdle : phases (logicalShard physical) ≠ .sorting physical)
    (hInside : physical < config.storageShardCount)
    (hFree : rank.device.slotJob slot = none)
    (hNodup : (owned.waiting taken').Nodup)
    (hWaiting :
      ∀ other,
        other ∈ owned.waiting taken' ↔
          other ≠ physical ∧ other ∈ rank.waiting taken) :
    BankBooks config taken'
      (Function.update phases (logicalShard physical)
        (.sorting physical))
      (owned.launchStream4 event physical slot) := by
  have hListed :
      ∀ other, other ≠ physical →
        (Function.update phases (logicalShard physical)
              (.sorting physical) (logicalShard other) =
            .listed other ↔
          phases (logicalShard other) = .listed other) := by
    intro other hNe
    have hBefore :
        phases (logicalShard physical) ≠ .listed other :=
      fun hSame => hOther other hNe (Or.inl hSame)
    have hAfter : ShardPhase.sorting physical ≠ .listed other := by
      simp
    exact update_phase_iff hBefore hAfter
  have hSorting :
      ∀ other, other ≠ physical →
        (Function.update phases (logicalShard physical)
              (.sorting physical) (logicalShard other) =
            .sorting other ↔
          phases (logicalShard other) = .sorting other) := by
    intro other hNe
    have hBefore :
        phases (logicalShard physical) ≠ .sorting other :=
      fun hSame => hOther other hNe (Or.inr hSame)
    have hAfter : ShardPhase.sorting physical ≠ .sorting other := by
      simpa using Ne.symm hNe
    exact update_phase_iff hBefore hAfter
  have hJobs : owned.device.slotJob = rank.device.slotJob := by
    rw [hDevice]
  have hExisting :
      ∀ other,
        owned.device.banks.cleanCount other +
            owned.device.banks.dirtyCount other =
          rank.device.banks.cleanCount other +
            rank.device.banks.dirtyCount other := by
    intro other
    rw [hDevice]
  constructor
  case replay =>
    dsimp only [Rank.launchStream4]
    rw [hTrace]
    exact bankReplay_snoc hBooks.replay hStep
  case nodup => exact hNodup
  case waiting =>
    intro other
    refine (hWaiting other).trans ?_
    by_cases hHere : other = physical
    · subst hHere
      rw [Function.update_self]
      exact iff_of_false (fun hBoth => hBoth.1 rfl) (by simp)
    · rw [hListed other hHere, ← hBooks.waiting other]
      exact and_iff_right hHere
  case sorting =>
    intro other
    dsimp only [Rank.launchStream4]
    rw [hJobs]
    by_cases hHere : other = physical
    · subst hHere
      rw [Function.update_self]
      exact
        iff_of_true ⟨slot, Function.update_self _ _ _⟩ rfl
    · rw [hSorting other hHere, ← hBooks.sorting other]
      refine exists_congr fun busy => ?_
      by_cases hSlot : busy = slot
      · rw [hSlot, Function.update_self, hFree]
        exact
          iff_of_false
            (fun hSame => hHere (Option.some.inj hSame).symm)
            (by simp)
      · rw [Function.update_of_ne hSlot]
  case jobs =>
    intro busy busy' other hBusy hBusy'
    dsimp only [Rank.launchStream4] at hBusy hBusy'
    rw [hJobs] at hBusy hBusy'
    have hNone : ∀ third, rank.device.slotJob third ≠ some physical :=
      fun third hJob =>
        hIdle ((hBooks.sorting physical).mp ⟨third, hJob⟩)
    by_cases hSlot : busy = slot
    · by_cases hSlot' : busy' = slot
      · exact hSlot.trans hSlot'.symm
      · rw [hSlot, Function.update_self] at hBusy
        rw [Function.update_of_ne hSlot',
          ← Option.some.inj hBusy] at hBusy'
        exact absurd hBusy' (hNone busy')
    · rw [Function.update_of_ne hSlot] at hBusy
      by_cases hSlot' : busy' = slot
      · rw [hSlot', Function.update_self] at hBusy'
        rw [← Option.some.inj hBusy'] at hBusy
        exact absurd hBusy (hNone busy)
      · rw [Function.update_of_ne hSlot'] at hBusy'
        exact hBooks.jobs busy busy' other hBusy hBusy'
  case processing =>
    intro other
    refine (hFlags other).trans ?_
    by_cases hHere : other = physical
    · subst hHere
      rw [Function.update_self]
      exact iff_of_true (Or.inl rfl) (Or.inr rfl)
    · rw [or_iff_right hHere, hBooks.processing other,
        ShardPhase.holds, ShardPhase.holds, hListed other hHere,
        hSorting other hHere]
  case dirty =>
    intro other
    dsimp only [Rank.launchStream4]
    rw [hTrace, unsortedRows_snoc, hEvent, hDevice]
    exact hBooks.dirty other
  case capacity =>
    intro other
    exact (hExisting other).trans_le (hBooks.capacity other)
  case inside =>
    intro other hHolds
    by_cases hHere : other = physical
    · rw [hHere]
      exact hInside
    · apply hBooks.inside other
      rw [ShardPhase.holds, hListed other hHere,
        hSorting other hHere] at hHolds
      exact hHolds
  case building =>
    intro hBuilds
    dsimp only [Rank.launchStream4] at hBuilds ⊢
    rw [hDevice] at hBuilds ⊢
    exact hBooks.building hBuilds
  case kept =>
    dsimp only [Rank.launchStream4]
    rw [hTrace]
    exact hBooks.kept
  case copied =>
    intro other
    dsimp only [Rank.launchStream4]
    rw [hCopies]
    exact hBooks.copied other

/- A bank from the pending queue is launched on a held slot. -/
theorem Stream4Books.launch
    (hBooks :
      Stream4Books config (slot :: held) [physical] rank) :
    Stream4Books config held []
      (rank.launchStream4 (.launched physical) physical slot) := by
  rcases hBooks.banks with ⟨phases, hBanks⟩
  have hNew := hBooks.slots.not_busy_of_held
  have hMem : physical ∈ rank.waiting [physical] := by
    simp [Rank.waiting]
  have hPhase := (hBanks.waiting physical).mp hMem
  have hInside := hBanks.inside physical (Or.inl hPhase)
  have hNodup := hBanks.nodup
  rw [Rank.waiting, ← List.append_assoc, List.nodup_append]
    at hNodup
  rcases hNodup with ⟨hRest, -, hApart⟩
  constructor
  case banks =>
    refine
      ⟨_, hBanks.startSort rfl rfl rfl ?_ ?_ (fun _ _ => rfl) ?_ ?_
        hInside ?_ ?_ ?_⟩
    · intro other
      rw [hBanks.processing other]
      refine (or_iff_right_of_imp ?_).symm
      rintro rfl
      exact Or.inl hPhase
    · rw [bankStep, if_pos hPhase]
    · rintro other hNe (hListed | hSorts)
      · rw [hPhase] at hListed
        exact hNe (ShardPhase.listed.inj hListed).symm
      · rw [hPhase] at hSorts
        cases hSorts
    · rw [hPhase]
      simp
    · by_contra hJob
      rcases Option.ne_none_iff_exists'.mp hJob with ⟨bank, hSome⟩
      exact hNew (hBooks.slots.jobs slot bank hSome).1
    · rw [Rank.waiting, List.append_nil]
      exact hRest
    · intro other
      have hSplit :
          other ∈ rank.waiting [physical] ↔
            other ∈
                rank.device.readyShardList ++
                  rank.stream4.pending ∨
              other = physical := by
        rw [Rank.waiting, ← List.append_assoc, List.mem_append,
          List.mem_singleton]
      rw [Rank.waiting, List.append_nil, hSplit]
      constructor
      · intro hOld
        exact
          ⟨hApart other hOld physical
            (List.mem_singleton_self _), Or.inl hOld⟩
      · rintro ⟨hNe, hOld | hHere⟩
        · exact hOld
        · exact absurd hHere hNe
  case slots =>
    exact
      hBooks.slots.launch _ hInside
        (hBooks.slots.idle physical (List.mem_singleton_self _))

/- With nothing waiting or busy any bank may be sorted. -/
theorem Stream4Books.pressureLaunch
    (hBooks : Stream4Books config (slot :: held) [] rank)
    (hQuiet : rank.Quiet)
    (hPending : rank.stream4.pending = [])
    (hBusy : rank.stream4.busySlots = [])
    (hInside : physical < config.storageShardCount) :
    Stream4Books config held []
      ((rank.ownBank physical).launchStream4
        (.pressureLaunched physical) physical slot) := by
  rcases hBooks.banks with ⟨phases, hBanks⟩
  have hNone : rank.waiting [] = [] := by
    rw [Rank.waiting, hQuiet.list, hPending]
    rfl
  have hJobs : ∀ busy, rank.device.slotJob busy = none := by
    intro busy
    by_contra hJob
    rcases Option.ne_none_iff_exists'.mp hJob with ⟨bank, hSome⟩
    have hMem := (hBooks.slots.jobs busy bank hSome).1
    rw [hBusy] at hMem
    exact absurd hMem List.not_mem_nil
  have hFree :
      ∀ other, ¬ (phases (logicalShard other)).holds other := by
    rintro other (hListed | hSorts)
    · have hMem := (hBanks.waiting other).mpr hListed
      rw [hNone] at hMem
      exact absurd hMem List.not_mem_nil
    · rcases (hBanks.sorting other).mpr hSorts with ⟨busy, hJob⟩
      rw [hJobs busy] at hJob
      cases hJob
  have hIdle : phases (logicalShard physical) = .idle := by
    cases hPhase : phases (logicalShard physical) with
    | idle => rfl
    | listed other =>
        have hShard :=
          logicalShard_of_holds hBanks.replay (Or.inl hPhase)
        rw [← hShard] at hPhase
        exact absurd (Or.inl hPhase) (hFree other)
    | sorting other =>
        have hShard :=
          logicalShard_of_holds hBanks.replay (Or.inr hPhase)
        rw [← hShard] at hPhase
        exact absurd (Or.inr hPhase) (hFree other)
  constructor
  case banks =>
    refine
      ⟨_, hBanks.startSort rfl rfl rfl ?_ ?_ (fun _ _ => rfl) ?_ ?_
        hInside (hJobs slot) ?_ ?_⟩
    · intro other
      dsimp only [Rank.ownBank]
      by_cases hHere : other = physical
      · rw [hHere, Function.update_self]
        exact iff_of_true Nat.one_ne_zero (Or.inl rfl)
      · rw [Function.update_of_ne hHere, or_iff_right hHere]
    · rw [bankStep, if_pos hIdle]
    · rintro other - (hListed | hSorts)
      · rw [hIdle] at hListed
        cases hListed
      · rw [hIdle] at hSorts
        cases hSorts
    · rw [hIdle]
      simp
    · exact hBanks.nodup
    · intro other
      rw [hNone]
      exact
        iff_of_false
          (by
            rw [show (rank.ownBank physical).waiting [] = [] from
              hNone]
            exact List.not_mem_nil)
          fun hBoth => List.not_mem_nil hBoth.2
  case slots =>
    have hOwned :
        SlotBooks config (slot :: held) []
          (rank.ownBank physical) :=
      hBooks.slots.congr rfl fun _ _ hJob => hJob
    exact
      hOwned.launch _ hInside
        (hBooks.slots.not_running hBusy _)

----------------
-- Consuming The Ready List
----------------

/-
  Listed banks that were not queued are queued without a
  fault.
-/
theorem enqueue_spec
    {queue : Stream4Queue}
    {shards : List Nat}
    (hInside :
      ∀ physical ∈ shards, physical < config.storageShardCount)
    (hNodup : shards.Nodup)
    (hNew :
      ∀ physical ∈ shards,
        queue.pendingQueued physical = false) :
    ∃ marks,
      shards.foldlM (Stream4Queue.enqueue config) queue =
          .ok
            { queue with
              pending := queue.pending ++ shards
              pendingQueued := marks } ∧
        ∀ physical,
          marks physical = true ↔
            queue.pendingQueued physical = true ∨
              physical ∈ shards := by
  induction shards generalizing queue with
  | nil =>
      refine ⟨queue.pendingQueued, ?_, ?_⟩
      · rw [List.append_nil]
        rfl
      · intro physical
        simp
  | cons shard shards ih =>
      have hHere := hInside shard List.mem_cons_self
      have hLogical := logicalShard_lt hHere
      rcases List.nodup_cons.mp hNodup with ⟨hNotMem, hRest⟩
      let marked : Stream4Queue :=
        { queue with
          pendingQueued :=
            Function.update queue.pendingQueued shard true
          pending := queue.pending ++ [shard] }
      have hMarked : queue.enqueue config shard = .ok marked := by
        rw [Stream4Queue.enqueue, if_neg (by omega),
          if_neg (by omega), if_neg]
        simp [hNew shard]
      have hStill :
          ∀ physical ∈ shards,
            marked.pendingQueued physical = false := by
        intro physical hMem
        dsimp only [marked]
        rw [Function.update_of_ne]
        · exact hNew physical (List.mem_cons_of_mem _ hMem)
        · rintro rfl
          exact hNotMem hMem
      rcases ih
          (fun physical hMem =>
            hInside physical (List.mem_cons_of_mem _ hMem))
          hRest hStill with
        ⟨marks, hFold, hMarks⟩
      refine ⟨marks, ?_, ?_⟩
      · rw [List.foldlM_cons, hMarked, except_ok_bind, hFold]
        simp [marked]
      · intro physical
        rw [hMarks physical, List.mem_cons]
        dsimp only [marked]
        by_cases hSame : physical = shard
        · rw [hSame, Function.update_self]
          simp
        · rw [Function.update_of_ne hSame]
          simp [hSame]

/- The host takes the list of the device over. -/
theorem Stream4Books.consume
    (hBooks : Stream4Books config held taken rank) :
    rank.device.readyShardList.length ≤
        config.storageShardCount ∧
      ∃ queue,
        rank.device.readyShardList.foldlM
              (Stream4Queue.enqueue config) rank.stream4 =
            .ok queue ∧
          Stream4Books config held taken
            (rank.consumeReadyList.setStream4 queue) := by
  rcases hBooks.banks with ⟨phases, hBanks⟩
  have hNodup := hBanks.nodup
  rw [Rank.waiting, List.nodup_append] at hNodup
  rcases hNodup with ⟨hList, -, hApart⟩
  have hInside :
      ∀ physical ∈ rank.device.readyShardList,
        physical < config.storageShardCount :=
    fun physical hMem =>
      hBanks.inside physical
        (Or.inl
          ((hBanks.waiting physical).mp
            (List.mem_append_left _ hMem)))
  have hNew :
      ∀ physical ∈ rank.device.readyShardList,
        rank.stream4.pendingQueued physical = false := by
    intro physical hMem
    by_contra hQueued
    have hPending :=
      (hBooks.slots.queued physical).mp (by simpa using hQueued)
    exact
      hApart physical hMem physical
        (List.mem_append_left _ hPending) rfl
  have hPerm :
      ((rank.stream4.pending ++ rank.device.readyShardList) ++
          taken).Perm
        (rank.waiting taken) := by
    rw [Rank.waiting, ← List.append_assoc]
    exact List.Perm.append_right _ List.perm_append_comm
  refine ⟨?_, ?_⟩
  · have hSub :
        rank.device.readyShardList.Subperm
          (List.range config.storageShardCount) :=
      hList.subperm fun physical hMem =>
        List.mem_range.mpr (hInside physical hMem)
    have hLength := hSub.length_le
    rwa [List.length_range] at hLength
  · rcases enqueue_spec hInside hList hNew with
      ⟨marks, hFold, hMarks⟩
    refine ⟨_, hFold, ?_, ?_⟩
    · exact
        ⟨phases, hBanks.replay, hPerm.nodup_iff.mpr hBanks.nodup,
          fun physical =>
            hPerm.mem_iff.trans (hBanks.waiting physical),
          hBanks.sorting, hBanks.jobs, hBanks.processing,
          hBanks.dirty, hBanks.capacity, hBanks.inside,
          fun _ => rfl, hBanks.kept, hBanks.copied⟩
    · have hSlots := hBooks.slots
      refine
        ⟨hSlots.slots, hSlots.jobs, hSlots.inside,
          hSlots.running, hSlots.distinct, hSlots.busy, ?_,
          hSlots.idle⟩
      intro physical
      refine (hMarks physical).trans ?_
      dsimp only [Rank.setStream4]
      rw [List.mem_append, hSlots.queued physical]

end Dispatcher

end BeamSearch
