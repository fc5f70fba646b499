import BeamSearch.Dispatcher.Program

/-
  What sorting leaves alone.

  The device and everything the host does for Stream 4 change no
  ring, no round and no collective, so invariants about these
  pass through the whole Stream 4 side of the dispatcher.

  While stream 3 is idle and its list is consumed they do not
  bring back rows to sort either.

  Main declarations:
    * `SameRounds`
    * `Sorts`
    * `drainPendingStream4Shards_within`
    * `pressureFlushStream4_within`
-/

namespace BeamSearch

open Stream3
open Hoare

namespace Dispatcher

/- Two states of a rank agree on rings, rounds, collectives. -/
structure SameRounds (a b : Rank) : Prop where
  rings : b.rings = a.rings
  rounds : b.rounds = a.rounds
  stopRequested : b.stopRequested = a.stopRequested
  ringLaunches : b.trace.ringLaunches = a.trace.ringLaunches
  ringEvents : b.trace.ringEvents = a.trace.ringEvents
  collectives : b.trace.collectives = a.trace.collectives
  zeroSends : b.trace.zeroSends = a.trace.zeroSends

/- Nothing happened. -/
theorem SameRounds.refl (rank : Rank) : SameRounds rank rank :=
  ⟨rfl, rfl, rfl, rfl, rfl, rfl, rfl⟩

/- One stretch after the other. -/
theorem SameRounds.trans
    {a b c : Rank}
    (hFirst : SameRounds a b)
    (hSecond : SameRounds b c) :
    SameRounds a c where
  rings := hSecond.rings.trans hFirst.rings
  rounds := hSecond.rounds.trans hFirst.rounds
  stopRequested :=
    hSecond.stopRequested.trans hFirst.stopRequested
  ringLaunches := hSecond.ringLaunches.trans hFirst.ringLaunches
  ringEvents := hSecond.ringEvents.trans hFirst.ringEvents
  collectives := hSecond.collectives.trans hFirst.collectives
  zeroSends := hSecond.zeroSends.trans hFirst.zeroSends

/- The relation is a frame for programs. -/
theorem sameRounds_frame : Frame SameRounds :=
  ⟨SameRounds.refl, SameRounds.trans⟩

----------------
-- Sorting
----------------

/- Stream 3 does nothing and its list is consumed. -/
structure Rank.Quiet (rank : Rank) : Prop where
  idle : rank.device.stage = .idle
  list : rank.device.readyShardList = []

/- A bank without rows to sort, or on its way to a sort. -/
def Rank.Settled (physical : Nat) (rank : Rank) : Prop :=
  rank.device.banks.processingFlag physical ≠ 0 ∨
    rank.device.banks.dirtyCount physical = 0

/- All that sorting may change between two states. -/
structure Sorts (a b : Rank) : Prop extends SameRounds a b where
  quiet : a.Quiet → b.Quiet
  settled :
    a.Quiet →
      ∀ physical, a.Settled physical → b.Settled physical

/- Nothing happened, so what was sorted is. -/
theorem Sorts.refl (rank : Rank) : Sorts rank rank where
  toSameRounds := SameRounds.refl rank
  quiet hQuiet := hQuiet
  settled _ _ hSettled := hSettled

/- What the first stretch kept, the second keeps. -/
theorem Sorts.trans
    {a b c : Rank}
    (hFirst : Sorts a b)
    (hSecond : Sorts b c) :
    Sorts a c where
  toSameRounds :=
    hFirst.toSameRounds.trans hSecond.toSameRounds
  quiet hQuiet := hSecond.quiet (hFirst.quiet hQuiet)
  settled hQuiet physical hSettled :=
    hSecond.settled (hFirst.quiet hQuiet) physical
      (hFirst.settled hQuiet physical hSettled)

/- A program of such steps is one. -/
theorem sorts_frame : Frame Sorts :=
  ⟨Sorts.refl, Sorts.trans⟩

/- A step of the host alone. -/
theorem Sorts.of_device
    {a b : Rank}
    (hSame : SameRounds a b)
    (hDevice : b.device = a.device) :
    Sorts a b where
  toSameRounds := hSame
  quiet hQuiet := by
    constructor
    · rw [hDevice]
      exact hQuiet.idle
    · rw [hDevice]
      exact hQuiet.list
  settled _ physical hSettled := by
    rw [Rank.Settled, hDevice]
    exact hSettled

----------------
-- The Device
----------------

/-
  The device touches none of the books of the host; one case
  for each of its steps.
-/
theorem deviceEvent_sameRounds
    (config : DispatchConfig)
    (rank : Rank)
    (event : DeviceEvent) :
    SameRounds rank (rank.deviceEvent config event) := by
  cases event with
  | stream4Complete slot cleanCount =>
      rw [Rank.deviceEvent]
      cases rank.device.slotJob slot with
      | none => exact SameRounds.refl rank
      | some physical => exact ⟨rfl, rfl, rfl, rfl, rfl, rfl, rfl⟩
  | ringComplete ring => exact ⟨rfl, rfl, rfl, rfl, rfl, rfl, rfl⟩
  | stream3Advance rows sendTotal =>
      rw [Rank.deviceEvent]
      cases rank.device.stage with
      | idle => exact SameRounds.refl rank
      | collectLocal => exact ⟨rfl, rfl, rfl, rfl, rfl, rfl, rfl⟩
      | buildReadyQueue forceFlush receiveReserve =>
          exact ⟨rfl, rfl, rfl, rfl, rfl, rfl, rfl⟩
      | collectRemote remote =>
          exact ⟨rfl, rfl, rfl, rfl, rfl, rfl, rfl⟩
  | templates ring busy =>
      exact ⟨rfl, rfl, rfl, rfl, rfl, rfl, rfl⟩
  | stop => exact ⟨rfl, rfl, rfl, rfl, rfl, rfl, rfl⟩

/- While stream 3 is idle only finished sorts change banks. -/
theorem deviceEvent_sorts
    (config : DispatchConfig)
    (rank : Rank)
    (event : DeviceEvent) :
    Sorts rank (rank.deviceEvent config event) := by
  have hSame := deviceEvent_sameRounds config rank event
  cases event with
  | stream4Complete slot cleanCount =>
      rw [Rank.deviceEvent] at hSame ⊢
      cases hJob : rank.device.slotJob slot with
      | none => exact Sorts.refl rank
      | some physical =>
          rw [hJob] at hSame
          refine ⟨hSame, fun hQuiet => ⟨hQuiet.idle, hQuiet.list⟩,
            ?_⟩
          intro _ other hSettled
          rw [Rank.Settled] at hSettled ⊢
          dsimp only [completeBank]
          by_cases hHere : other = physical
          · rw [hHere, Function.update_self,
              Function.update_self]
            exact Or.inr rfl
          · rw [Function.update_of_ne hHere,
              Function.update_of_ne hHere]
            exact hSettled
  | ringComplete ring =>
      exact
        ⟨hSame, fun hQuiet => ⟨hQuiet.idle, hQuiet.list⟩,
          fun _ _ hSettled => hSettled⟩
  | stream3Advance rows sendTotal =>
      by_cases hIdle : rank.device.stage = .idle
      · rw [Rank.deviceEvent, hIdle]
        exact Sorts.refl rank
      · exact
          ⟨hSame, fun hQuiet => absurd hQuiet.idle hIdle,
            fun hQuiet => absurd hQuiet.idle hIdle⟩
  | templates ring busy =>
      exact
        ⟨hSame, fun hQuiet => ⟨hQuiet.idle, hQuiet.list⟩,
          fun _ _ hSettled => hSettled⟩
  | stop =>
      exact
        ⟨hSame, fun hQuiet => ⟨hQuiet.idle, hQuiet.list⟩,
          fun _ _ hSettled => hSettled⟩

/- The steps of one look, one by one. -/
theorem deviceEvents_sorts
    (config : DispatchConfig)
    (events : List DeviceEvent)
    (rank : Rank) :
    Sorts rank
      (events.foldl (Rank.deviceEvent config) rank) := by
  induction events generalizing rank with
  | nil => exact Sorts.refl rank
  | cons event events ih =>
      exact
        (deviceEvent_sorts config rank event).trans
          (ih (rank.deviceEvent config event))

/- What the host finds when it looks. -/
theorem observed_sorts
    (config : DispatchConfig)
    (rank : Rank) :
    Sorts rank (rank.observed config) := by
  rw [Rank.observed]
  cases rank.schedule with
  | nil => exact Sorts.refl rank
  | cons events schedule =>
      have hEvents := deviceEvents_sorts config events rank
      refine ⟨?_, ?_, hEvents.settled⟩
      · rcases hEvents.toSameRounds with
          ⟨h1, h2, h3, h4, h5, h6, h7⟩
        exact ⟨h1, h2, h3, h4, h5, h6, h7⟩
      · intro hQuiet
        have hAfter := hEvents.quiet hQuiet
        exact ⟨hAfter.idle, hAfter.list⟩

section Frames

variable (config : DispatchConfig)
variable (fuel : Nat)

/- Looking is waiting for nothing. -/
theorem observe_within :
    Within Sorts (observe config) := by
  refine
    Within.seq sorts_frame
      (Within.update (observed_sorts config)) ?_
  intro _
  exact Within.current sorts_frame

/- A step of the host that leaves the device alone. -/
theorem host_within
    {f : Rank → Rank}
    (hSame : ∀ rank, SameRounds rank (f rank))
    (hDevice : ∀ rank, (f rank).device = rank.device) :
    Within Sorts (modify f : Dispatch PUnit) :=
  Within.update fun rank =>
    Sorts.of_device (hSame rank) (hDevice rank)

/- A stop is no step. -/
theorem fail_within
    {α : Type}
    (what : String) :
    Within Sorts (fail what : Dispatch α) :=
  Within.stop sorts_frame _

/- A wait is a look that may stall. -/
theorem await_within (done : Rank → Bool) :
    Within Sorts (await config done) := by
  refine Within.seq sorts_frame (observe_within config) ?_
  intro rank
  exact
    Within.branch (Within.value sorts_frame _)
      (Within.stop sorts_frame _)

/- A check is a look that may stop. -/
theorem throwIfStreamFatalError_within (phase : String) :
    Within Sorts (throwIfStreamFatalError config phase) := by
  refine Within.seq sorts_frame (observe_within config) ?_
  intro rank
  exact
    Within.branch (fail_within _)
      (Within.value sorts_frame _)

/- The copies are made on the host. -/
theorem copyCounts_within :
    Within Sorts (copyCounts config) := by
  refine Within.seq sorts_frame (observe_within config) ?_
  intro _
  refine
    Within.seq sorts_frame
      (host_within (fun _ => ⟨rfl, rfl, rfl, rfl, rfl, rfl, rfl⟩)
        fun _ => rfl)
      ?_
  intro _
  refine Within.seq sorts_frame (observe_within config) ?_
  intro _
  exact host_within (fun _ => ⟨rfl, rfl, rfl, rfl, rfl, rfl, rfl⟩)
        fun _ => rfl

/- The question is asked of the copies. -/
theorem stream3HasWritableBuffer_within (incomingBound : Nat) :
    Within Sorts
      (stream3HasWritableBuffer config incomingBound) := by
  refine Within.seq sorts_frame ?_ ?_
  · refine
      Within.seq sorts_frame (copyCounts_within config) ?_
    intro _
    refine Within.seq sorts_frame (observe_within config) ?_
    intro _
    exact
      host_within (fun _ => ⟨rfl, rfl, rfl, rfl, rfl, rfl, rfl⟩)
        fun _ => rfl
  · intro _
    refine
      Within.seq sorts_frame
        (Within.current sorts_frame) ?_
    intro rank
    exact Within.value sorts_frame _

----------------
-- Slots
----------------

/-
  The queue of the host is none of the counts; it may refuse a
  step.
-/
theorem stepQueue_within
    {α : Type}
    (step :
      Stream4Queue → Except Exception (α × Stream4Queue)) :
    Within Sorts (stepQueue step) := by
  refine
    Within.seq sorts_frame
      (Within.current sorts_frame) ?_
  intro rank
  cases step rank.stream4 with
  | error error => exact Within.stop sorts_frame _
  | ok result =>
      refine
        Within.seq sorts_frame
          (host_within (fun _ => ⟨rfl, rfl, rfl, rfl, rfl, rfl, rfl⟩)
            fun _ => rfl) ?_
      intro _
      exact Within.value sorts_frame _

/- The list of busy slots is the queue's. -/
theorem dropBusySlot_within (slot : Nat) :
    Within Sorts
      (modify (Rank.dropBusySlot slot) : Dispatch PUnit) :=
  host_within (fun _ => ⟨rfl, rfl, rfl, rfl, rfl, rfl, rfl⟩)
        fun _ => rfl

/- A slot is released by looking at it. -/
theorem releaseSlotIfDone_within (slot : Nat) :
    Within Sorts (releaseSlotIfDone config slot) := by
  refine Within.seq sorts_frame (observe_within config) ?_
  intro rank
  refine Within.branch ?_ (Within.value sorts_frame _)
  refine
    Within.seq sorts_frame (dropBusySlot_within slot) ?_
  intro _
  refine Within.seq sorts_frame (stepQueue_within _) ?_
  intro _
  exact Within.value sorts_frame _

/- So are all of them. -/
theorem releaseCompletedStream4Slots_within :
    Within Sorts (releaseCompletedStream4Slots config) := by
  refine
    Within.seq sorts_frame
      (Within.current sorts_frame) ?_
  intro rank
  exact
    Within.anyOf sorts_frame fun slot _ =>
      releaseSlotIfDone_within config slot

/- The event is waited for, then the slot is released. -/
theorem waitStream4Slot_within (slot : Nat) :
    Within Sorts (waitStream4Slot config slot) := by
  refine Within.seq sorts_frame (await_within config _) ?_
  intro _
  refine
    Within.seq sorts_frame (dropBusySlot_within slot) ?_
  intro _
  exact stepQueue_within _

/- The walk over the slots, as often as it takes. -/
theorem waitAllStream4Slots_within :
    Within Sorts (waitAllStream4Slots config fuel) := by
  refine Within.repeatUntil sorts_frame ?_
  refine
    Within.seq sorts_frame
      (Within.current sorts_frame) ?_
  intro rank
  cases rank.stream4.busySlots with
  | nil => exact Within.value sorts_frame _
  | cons slot slots =>
      refine
        Within.seq sorts_frame
          (waitStream4Slot_within config slot) ?_
      intro _
      refine
        Within.seq sorts_frame
          (releaseCompletedStream4Slots_within config) ?_
      intro _
      exact Within.value sorts_frame _

/- The slots are waited for without looking for a stop. -/
theorem waitAllStream4Slots_stopped :
    Triple (fun s => s.stopRequested = true)
      (waitAllStream4Slots config fuel)
      (fun _ s => s.stopRequested = true)
      fun _ s => s.stopRequested = true :=
  (waitAllStream4Slots_within config fuel).keeps
    fun _ _ hSorts hStopped =>
      hSorts.stopRequested.trans hStopped

/- One slot of those that are busy. -/
theorem waitCompletedStream4Slot_within :
    Within Sorts (waitCompletedStream4Slot config fuel) := by
  refine
    Within.seq sorts_frame
      (Within.current sorts_frame) ?_
  intro rank
  rcases rank.stream4.busySlots with _ | ⟨slot, _ | ⟨other, slots⟩⟩
  · exact Within.value sorts_frame _
  · refine
      Within.seq sorts_frame
        (waitStream4Slot_within config slot) ?_
    intro _
    exact Within.value sorts_frame _
  · refine
      Within.seq sorts_frame
        (Within.repeatUntil sorts_frame
          (releaseCompletedStream4Slots_within config)) ?_
    intro _
    exact Within.value sorts_frame _

/- A slot is taken from the queue. -/
theorem popFreeSlot_within :
    Within Sorts popFreeSlot := by
  refine
    Within.seq sorts_frame
      (Within.current sorts_frame) ?_
  intro rank
  cases rank.stream4.freeSlots with
  | nil => exact Within.value sorts_frame _
  | cons slot slots =>
      refine
        Within.seq sorts_frame
          (host_within (fun _ => ⟨rfl, rfl, rfl, rfl, rfl, rfl, rfl⟩)
            fun _ => rfl) ?_
      intro _
      exact Within.value sorts_frame _

/- A slot, waited for where none is free. -/
theorem acquireStream4SlotBlocking_within :
    Within Sorts
      (acquireStream4SlotBlocking config fuel) := by
  refine
    Within.seq sorts_frame
      (releaseCompletedStream4Slots_within config) ?_
  intro _
  refine Within.seq sorts_frame popFreeSlot_within ?_
  intro freeSlot
  cases freeSlot with
  | some slot => exact Within.value sorts_frame _
  | none =>
      refine
        Within.seq sorts_frame
          (waitCompletedStream4Slot_within config fuel) ?_
      intro waited
      refine Within.branch ?_ (fail_within _)
      refine Within.seq sorts_frame popFreeSlot_within ?_
      intro acquired
      cases acquired with
      | some slot => exact Within.value sorts_frame _
      | none => exact Within.stop sorts_frame _

----------------
-- Launches
----------------

/-
  The full banks go from the device's list to the queue. The
  list is no bank's count.
-/
theorem appendStream3ReadyQueue_within :
    Within Sorts (appendStream3ReadyQueue config) := by
  refine Within.seq sorts_frame (observe_within config) ?_
  intro rank
  refine Within.branch (Within.value sorts_frame _) ?_
  refine Within.branch (fail_within _) ?_
  refine
    Within.seq sorts_frame
      (Within.update fun _ =>
        ⟨⟨rfl, rfl, rfl, rfl, rfl, rfl, rfl⟩,
          fun hQuiet => ⟨hQuiet.idle, rfl⟩,
          fun _ _ hSettled => hSettled⟩) ?_
  intro _
  exact stepQueue_within _

/-
  A launch gives the device a job; the bank keeps its rows
  until the job has read them.
-/
theorem launchStream4ShardOnSlot_within
    (event : BankEvent)
    (shard slot : Nat) :
    Within Sorts
      (launchStream4ShardOnSlot event shard slot) := by
  refine
    Within.seq sorts_frame
      (Within.current sorts_frame) ?_
  intro rank
  exact
    Within.branch (fail_within _)
      (Within.update fun _ =>
        ⟨⟨rfl, rfl, rfl, rfl, rfl, rfl, rfl⟩,
          fun hQuiet => ⟨hQuiet.idle, hQuiet.list⟩,
          fun _ _ hSettled => hSettled⟩)

/- One launch for each slot. -/
theorem launchOnFreeSlots_within (slots : List Nat) :
    Within Sorts (launchOnFreeSlots config slots) := by
  induction slots with
  | nil => exact Within.value sorts_frame _
  | cons slot slots ih =>
      refine Within.seq sorts_frame (stepQueue_within _) ?_
      intro taken
      cases taken with
      | none => exact Within.value sorts_frame _
      | some shard =>
          refine Within.seq sorts_frame popFreeSlot_within ?_
          intro popped
          cases popped with
          | none => exact Within.stop sorts_frame _
          | some acquired =>
              refine
                Within.seq sorts_frame
                  (launchStream4ShardOnSlot_within _ _ _) ?_
              intro _
              refine Within.seq sorts_frame ih ?_
              intro _
              exact Within.value sorts_frame _

/- Release first, then launch. -/
theorem launchPendingStream4Shards_within :
    Within Sorts (launchPendingStream4Shards config) := by
  refine
    Within.seq sorts_frame
      (releaseCompletedStream4Slots_within config) ?_
  intro _
  refine
    Within.seq sorts_frame
      (Within.current sorts_frame) ?_
  intro rank
  exact launchOnFreeSlots_within config _

/- A launch that waits for its slot. -/
theorem launchBlocking_within :
    Within Sorts (launchBlocking config fuel) := by
  refine
    Within.seq sorts_frame
      (acquireStream4SlotBlocking_within config fuel) ?_
  intro slot
  refine Within.seq sorts_frame (stepQueue_within _) ?_
  intro taken
  cases taken with
  | none =>
      exact
        host_within (fun _ => ⟨rfl, rfl, rfl, rfl, rfl, rfl, rfl⟩)
        fun _ => rfl
  | some shard => exact launchStream4ShardOnSlot_within _ _ _

/- The drain, round by round. -/
theorem drainPendingStream4Shards_within :
    Within Sorts (drainPendingStream4Shards config fuel) := by
  refine Within.seq sorts_frame ?_ ?_
  · refine Within.repeatUntil sorts_frame ?_
    refine
      Within.seq sorts_frame
        (Within.current sorts_frame) ?_
    intro rank
    refine Within.branch (Within.value sorts_frame _) ?_
    refine
      Within.seq sorts_frame
        (launchPendingStream4Shards_within config) ?_
    intro _
    refine
      Within.seq sorts_frame
        (Within.current sorts_frame) ?_
    intro rank
    refine Within.branch (Within.value sorts_frame _) ?_
    refine Within.branch (fail_within _) ?_
    refine
      Within.seq sorts_frame
        (launchBlocking_within config fuel) ?_
    intro _
    exact Within.value sorts_frame _
  · intro _
    exact waitAllStream4Slots_within config fuel

/- A bank that is taken over by force is on its way too. -/
theorem ownBank_sorts
    (shard : Nat)
    (rank : Rank) :
    Sorts rank (rank.ownBank shard) := by
  refine
    ⟨⟨rfl, rfl, rfl, rfl, rfl, rfl, rfl⟩,
      fun hQuiet => ⟨hQuiet.idle, hQuiet.list⟩, ?_⟩
  intro _ physical hSettled
  by_cases hHere : physical = shard
  · left
    rw [hHere]
    dsimp only [Rank.ownBank]
    rw [Function.update_self]
    decide
  · rw [Rank.Settled] at hSettled ⊢
    dsimp only [Rank.ownBank]
    rw [Function.update_of_ne hHere]
    exact hSettled

/- One bank of the flush. -/
theorem pressureFlushShard_within (shard : Nat) :
    Within Sorts (pressureFlushShard config fuel shard) := by
  refine
    Within.seq sorts_frame
      (acquireStream4SlotBlocking_within config fuel) ?_
  intro slot
  refine
    Within.seq sorts_frame
      (Within.update (ownBank_sorts shard)) ?_
  intro _
  refine
    Within.seq sorts_frame
      (launchStream4ShardOnSlot_within _ _ _) ?_
  intro _
  exact waitAllStream4Slots_within config fuel

/- All banks, one after the other. -/
theorem pressureFlushStream4_within :
    Within Sorts (pressureFlushStream4 config fuel) := by
  refine
    Within.seq sorts_frame
      (drainPendingStream4Shards_within config fuel) ?_
  intro _
  refine
    Within.seq sorts_frame
      (waitAllStream4Slots_within config fuel) ?_
  intro _
  refine Within.seq sorts_frame ?_ ?_
  · exact
      Within.forEach sorts_frame fun shard _ =>
        pressureFlushShard_within config fuel shard
  · intro _
    exact throwIfStreamFatalError_within config _

/- The flush, where it was asked for. -/
theorem pressureFlushIf_within (exact : Bool) :
    Within Sorts (pressureFlushIf config fuel exact) :=
  Within.branch (pressureFlushStream4_within config fuel)
    (Within.value sorts_frame _)

/- The count of jobs is the queue's. -/
theorem clearThresholdJobs_within :
    Within Sorts
      (modify Rank.clearThresholdJobs : Dispatch PUnit) :=
  host_within (fun _ => ⟨rfl, rfl, rfl, rfl, rfl, rfl, rfl⟩)
        fun _ => rfl

/- The update of one rank alone. -/
theorem forcePeriodicThresholdUpdate_within :
    Within Sorts
      (forcePeriodicThresholdUpdate config fuel) := by
  refine
    Within.seq sorts_frame
      (Within.current sorts_frame) ?_
  intro rank
  refine Within.branch (Within.value sorts_frame _) ?_
  refine Within.branch (fail_within _) ?_
  refine
    Within.seq sorts_frame
      (waitAllStream4Slots_within config fuel) ?_
  intro _
  exact clearThresholdJobs_within

/- The update, where its period is over. -/
theorem maybeUpdateThreshold_within :
    Within Sorts (maybeUpdateThreshold config fuel) := by
  refine
    Within.seq sorts_frame
      (Within.current sorts_frame) ?_
  intro rank
  refine Within.branch (Within.value sorts_frame _) ?_
  refine
    Within.seq sorts_frame
      (drainPendingStream4Shards_within config fuel) ?_
  intro _
  refine
    Within.seq sorts_frame
      (forcePeriodicThresholdUpdate_within config fuel) ?_
  intro _
  exact Within.value sorts_frame _

/- The list is read, or left where a stop came. -/
theorem appendUnlessStopped_within :
    Within Sorts (appendUnlessStopped config) := by
  refine
    Within.seq sorts_frame
      (Within.current sorts_frame) ?_
  intro rank
  refine Within.branch (Within.value sorts_frame _) ?_
  refine
    Within.seq sorts_frame
      (appendStream3ReadyQueue_within config) ?_
  intro _
  exact Within.value sorts_frame _

/- The check reads the copies. -/
theorem checkCleanCounts_within :
    Within Sorts (checkCleanCounts config) := by
  refine
    Within.seq sorts_frame
      (Within.current sorts_frame) ?_
  intro rank
  exact
    Within.branch (fail_within _)
      (Within.value sorts_frame _)

----------------
-- Programs That Start Stream 3
----------------

/-
  What sorts keeps the rounds: the weaker frame of the steps
  that append rows.
-/
theorem sameRounds_of_sorts
    {α : Type}
    {program : Dispatch α}
    (hWithin : Within Sorts program) :
    Within SameRounds program :=
  hWithin.mono fun _ _ hSorts => hSorts.toSameRounds

/-
  The exchange stream may be given work, and what it appends
  is unsorted.
-/
theorem setStage_within (stage : Stream3Stage) :
    Within SameRounds
      (modify (Rank.setStage stage) : Dispatch PUnit) :=
  Within.update fun _ => ⟨rfl, rfl, rfl, rfl, rfl, rfl, rfl⟩

/- The received rows are appended. -/
theorem collectRemote_within (rows : List Nat) :
    Within SameRounds (collectRemote config rows) := by
  refine Within.branch (Within.value sameRounds_frame _) ?_
  refine Within.seq sameRounds_frame (setStage_within _) ?_
  intro _
  refine
    Within.seq sameRounds_frame
      (sameRounds_of_sorts (await_within config _)) ?_
  intro _
  refine
    Within.seq sameRounds_frame
      (sameRounds_of_sorts (throwIfStreamFatalError_within config _)) ?_
  intro _
  refine
    Within.seq sameRounds_frame
      (sameRounds_of_sorts (appendStream3ReadyQueue_within config)) ?_
  intro _
  exact Within.value sameRounds_frame _

/- A bank is sorted to make room, and the rest appended. -/
theorem relievePressure_within :
    Within SameRounds (relievePressure config) := by
  refine Within.seq sameRounds_frame (setStage_within _) ?_
  intro _
  refine
    Within.seq sameRounds_frame
      (sameRounds_of_sorts (await_within config _)) ?_
  intro _
  refine
    Within.seq sameRounds_frame
      (sameRounds_of_sorts (throwIfStreamFatalError_within config _)) ?_
  intro _
  refine
    Within.seq sameRounds_frame
      (sameRounds_of_sorts (appendStream3ReadyQueue_within config)) ?_
  intro queued
  refine
    Within.seq sameRounds_frame
      (sameRounds_of_sorts (launchPendingStream4Shards_within config)) ?_
  intro launched
  exact Within.value sameRounds_frame _

/- The update after a round of the flush. -/
theorem updateAfterFlush_within :
    Within Sorts (updateAfterFlush config fuel) := by
  refine Within.seq sorts_frame (Within.current sorts_frame) ?_
  intro rank
  exact
    Within.branch (forcePeriodicThresholdUpdate_within config fuel)
      (Within.value sorts_frame _)

/- The rounds of the flush, as many as are allowed. -/
theorem flushRounds_within (rounds : Nat) :
    Within SameRounds (flushRounds config fuel rounds) := by
  induction rounds with
  | zero => exact sameRounds_of_sorts (fail_within _)
  | succ rounds ih =>
      refine Within.seq sameRounds_frame ?_ ?_
      · refine Within.seq sameRounds_frame (setStage_within _) ?_
        intro _
        apply sameRounds_of_sorts
        refine Within.seq sorts_frame (await_within config _) ?_
        intro _
        refine
          Within.seq sorts_frame
            (throwIfStreamFatalError_within config _) ?_
        intro _
        refine
          Within.seq sorts_frame
            (appendStream3ReadyQueue_within config) ?_
        intro _
        refine
          Within.seq sorts_frame
            (drainPendingStream4Shards_within config fuel) ?_
        intro _
        refine
          Within.seq sorts_frame (copyCounts_within config) ?_
        intro _
        refine
          Within.seq sorts_frame
            (updateAfterFlush_within config fuel) ?_
        intro _
        refine
          Within.seq sorts_frame (Within.current sorts_frame) ?_
        intro rank
        exact Within.value sorts_frame _
      · intro converged
        exact
          Within.branch (Within.value sameRounds_frame _) ih

end Frames

end Dispatcher

end BeamSearch
