import BeamSearch.Core.Errors
import BeamSearch.Dispatcher.State

/-
  The program that dispatches a depth on one rank.

  Before every look at the device the next batch of its events
  happens, and a wait whose event is not among them stalls. A
  run is one choice of all batches and of all answers to the
  collectives. Rings take parents from the frontier, stream 3
  collects their children bank by bank, and Stream 4 sorts the
  banks the ready list names.

  Main declarations:
    * `launchFreeRings`
    * `launchPendingStream4Shards`, `drainPendingStream4Shards`
    * `runStream5ExchangeAndCollect`
    * `runDepth`
-/

namespace BeamSearch

open Stream3
open Hoare (forEach anyOf repeatUntil)

namespace Dispatcher

/-
  How a dispatch stops early: the code throws, a wait is not
  served or a loop goes on for too long, or the front of an
  empty queue is read.
-/
inductive Stop where
  | thrown (error : Exception)
  | stalled
  | undefined
deriving DecidableEq, Repr

/-
  The dispatcher of one rank: a program on its state that
  returns or stops.
-/
abbrev Dispatch (α : Type) : Type :=
  EStateM Stop Rank α

/- What the source throws as a `std::runtime_error`. -/
def fail {α : Type} (what : String) : Dispatch α :=
  throw (.thrown (.runtimeError what))

section Program

variable (config : DispatchConfig)
variable (frontierSize fuel : Nat)

----------------
-- Looking At The Device
----------------

/- The device works on until the host looks. -/
def Rank.observed (rank : Rank) : Rank :=
  match rank.schedule with
  | [] => rank
  | events :: schedule =>
      { events.foldl (Rank.deviceEvent config) rank with
        schedule := schedule }

/-
  Let the device make the steps the schedule gives it now,
  then look at it.
-/
def observe : Dispatch Rank := do
  modify (Rank.observed config)
  get

/-
  A wait on the device. A schedule that never finishes the
  work is a stall.
-/
def await (done : Rank → Bool) : Dispatch PUnit := do
  let rank ← observe config
  if done rank then pure ⟨⟩ else throw .stalled

/- The sort slot has no job. -/
def Rank.slotDone (slot : Nat) (rank : Rank) : Bool :=
  (rank.device.slotJob slot).isNone

/- The exchange stream has nothing to do. -/
def Rank.stream3Done (rank : Rank) : Bool :=
  decide (rank.device.stage = .idle)

/- The stop flag is copied as the device has it now. -/
def Rank.requestStop (rank : Rank) : Rank :=
  { rank with stopRequested := rank.device.stopFlag }

/-
  A rank alone asks the device for its stop flag; several
  ranks run a depth to its end. A stop is not taken back.
-/
def refreshStopRequested : Dispatch Bool := do
  let rank ← get
  if config.multiRank then pure false
  else if rank.stopRequested then pure true
  else do
    let rank ← observe config
    modify Rank.requestStop
    pure rank.device.stopFlag

/- The flag is read after the device went on, as a copy is. -/
def throwIfStreamFatalError
    (phase : String) : Dispatch PUnit := do
  let rank ← observe config
  if rank.device.fatalErrorFlag then
    fail ("cuda stream fatal error: phase=" ++ phase)
  else pure ⟨⟩

----------------
-- Room For Stream 3
----------------

/- The clean counts are copied. -/
def Rank.copyClean (rank : Rank) : Rank :=
  { rank with
    copies :=
      { rank.copies with
        clean := rank.device.banks.cleanCount } }

/-
  The dirty counts are copied later than the clean ones. The
  trace notes whether a bank was cleaned between both copies.
-/
def Rank.copyDirty (rank : Rank) : Rank :=
  { rank with
    copies :=
      { rank.copies with
        dirty := rank.device.banks.dirtyCount }
    trace :=
      { rank.trace with
        staleCopy :=
          rank.trace.staleCopy ||
            (List.range config.storageShardCount).any
              fun physical =>
                decide
                  (rank.copies.clean physical <
                    rank.device.banks.cleanCount physical) } }

/- The processing flags are copied. -/
def Rank.copyProcessing (rank : Rank) : Rank :=
  { rank with
    copies :=
      { rank.copies with
        processing := rank.device.banks.processingFlag } }

/-
  The three copies of the source, with the device going on
  between them.
-/
def copyCounts : Dispatch PUnit := do
  let _ ← observe config
  modify Rank.copyClean
  let _ ← observe config
  modify (Rank.copyDirty config)

/- The three arrays are copied one after the other. -/
def copyBanks : Dispatch PUnit := do
  copyCounts config
  let _ ← observe config
  modify Rank.copyProcessing

/- The host's copies, read as banks. -/
def HostCopies.banks (copies : HostCopies) : Banks where
  cleanCount := copies.clean
  dirtyCount := copies.dirty
  processingFlag := copies.processing
  writeBufferIndex _ := 0

/- What some bank of a shard must have free. -/
def requiredAvailable
    (incomingBound : Nat)
    (banks : Banks)
    (shard : Nat) : Nat :=
  if incomingBound ≠ 0 then incomingBound
  else if logicalProcessing banks shard then
    min config.stream3BatchCandidates
      config.geometry.shardCapacity
  else
    writeReserve config.geometry config.stream3BatchCandidates

/-
  A bank of the shard takes the rows that may come, as the
  copies show it.
-/
def writableBuffer
    (incomingBound : Nat)
    (banks : Banks)
    (shard : Nat) : Bool :=
  (List.range shardBufferCount).any fun buffer =>
    let physical := physicalShard shard buffer
    decide
      (banks.processingFlag physical = 0 ∧
        banks.existing physical < config.geometry.shardCapacity ∧
        requiredAvailable config incomingBound banks shard ≤
          config.geometry.shardCapacity -
            banks.existing physical)

/- Every shard has such a bank. -/
def stream3HasWritableBuffer
    (incomingBound : Nat) : Dispatch Bool := do
  copyBanks config
  let rank ← get
  pure
    ((List.range config.geometry.shardCount).all
      (writableBuffer config incomingBound rank.copies.banks))

----------------
-- Stream 4 Slots
----------------

/-
  The slot is put back at the end, and the job counts toward
  the next threshold.
-/
def Stream4Queue.free
    (slot : Nat)
    (queue : Stream4Queue) : Stream4Queue :=
  { queue with
    slotShard :=
      Function.update queue.slotShard slot
        config.storageShardCount
    freeSlots := queue.freeSlots ++ [slot]
    jobsSinceThresholdUpdate :=
      queue.jobsSinceThresholdUpdate + 1 }

/- The shard has no job on a slot. -/
def Stream4Queue.stopRunning
    (logical : Nat)
    (queue : Stream4Queue) : Stream4Queue :=
  { queue with
    logicalRunning :=
      Function.update queue.logicalRunning logical false
    logicalRunningShard :=
      Function.update queue.logicalRunningShard logical
        config.storageShardCount }

/-
  A slot whose job ended: the slot is freed, and the shard may
  be launched again. The faults are those the source throws.
-/
def Stream4Queue.markComplete
    (slot : Nat)
    (queue : Stream4Queue) : Except Exception Stream4Queue :=
  let shard := queue.slotShard slot
  let logical := logicalShard shard
  if config.storageShardCount ≤ shard then
    .ok (queue.free config slot)
  else if config.geometry.shardCount ≤ logical then
    .error
      (.runtimeError
        ("stream4 completed shard logical index exceeds " ++
          "shard count"))
  else if queue.logicalRunningShard logical ≠ shard ∨
      queue.logicalRunning logical = false then
    .error
      (.runtimeError
        ("stream4 completed shard has no matching logical " ++
          "running state"))
  else
    .ok ((queue.stopRunning config logical).free config slot)

/- The queue is replaced. -/
def Rank.setStream4 (queue : Stream4Queue) (rank : Rank) : Rank :=
  { rank with stream4 := queue }

/- A step of the host's queue that may throw. -/
def stepQueue
    {α : Type}
    (step : Stream4Queue → Except Exception (α × Stream4Queue)) :
    Dispatch α := do
  let rank ← get
  match step rank.stream4 with
  | .error error => throw (.thrown error)
  | .ok (a, queue) => do
      modify (Rank.setStream4 queue)
      pure a

/- The event of a slot. -/
def markStream4SlotComplete (slot : Nat) : Dispatch PUnit :=
  stepQueue fun queue => do
    let queue ← queue.markComplete config slot
    pure (⟨⟩, queue)

/- A slot is no longer busy. -/
def Rank.dropBusySlot (slot : Nat) (rank : Rank) : Rank :=
  { rank with
    stream4 :=
      { rank.stream4 with
        busySlots := rank.stream4.busySlots.erase slot } }

/- A slot is only released when its event has happened. -/
def releaseSlotIfDone (slot : Nat) : Dispatch Bool := do
  let rank ← observe config
  if rank.slotDone slot then do
    modify (Rank.dropBusySlot slot)
    markStream4SlotComplete config slot
    pure true
  else pure false

/- All busy slots are looked at, also after one was released. -/
def releaseCompletedStream4Slots : Dispatch Bool := do
  let rank ← get
  anyOf rank.stream4.busySlots (releaseSlotIfDone config)

/- The event is waited for. -/
def waitStream4Slot (slot : Nat) : Dispatch PUnit := do
  await config (Rank.slotDone slot)
  modify (Rank.dropBusySlot slot)
  markStream4SlotComplete config slot

/- The slots are waited for one by one, from the front. -/
def waitAllStream4Slots : Dispatch PUnit :=
  repeatUntil .stalled fuel do
    let rank ← get
    match rank.stream4.busySlots with
    | [] => pure true
    | slot :: _ => do
        waitStream4Slot config slot
        let _ ← releaseCompletedStream4Slots config
        pure false

/- With several busy slots any finished one will do. -/
def waitCompletedStream4Slot : Dispatch Bool := do
  let rank ← get
  match rank.stream4.busySlots with
  | [] => pure false
  | [slot] => do
      waitStream4Slot config slot
      pure true
  | _ => do
      repeatUntil .stalled fuel
        (releaseCompletedStream4Slots config)
      pure true

/- The first free slot is taken. -/
def Rank.dropFreeSlot (rank : Rank) : Rank :=
  { rank with
    stream4 :=
      { rank.stream4 with
        freeSlots := rank.stream4.freeSlots.tail } }

/- A free slot, where there is one. -/
def popFreeSlot : Dispatch (Option Nat) := do
  let rank ← get
  match rank.stream4.freeSlots with
  | [] => pure none
  | slot :: _ => do
      modify Rank.dropFreeSlot
      pure (some slot)

/-
  Without a free slot the source waits for a job. It takes no
  slot it has not seen: an empty list after a wait is `front`
  of nothing.
-/
def acquireStream4SlotBlocking : Dispatch Nat := do
  let _ ← releaseCompletedStream4Slots config
  let freeSlot ← popFreeSlot
  match freeSlot with
  | some slot => pure slot
  | none => do
      let waited ← waitCompletedStream4Slot config fuel
      if waited then do
        let acquired ← popFreeSlot
        match acquired with
        | some slot => pure slot
        | none => throw .undefined
      else
        fail
          ("stream4 blocking slot acquire has no busy slot to " ++
            "wait on")

----------------
-- Free Rings
----------------

/- The parents every slot of a ring takes, and the new cursor. -/
def ringSlotJobs : List Nat → Nat → List RingSlotJob × Nat
  | [], cursor => ([], cursor)
  | slot :: slots, cursor =>
      let lane := slot % config.inferenceParallelism
      if cursor < frontierSize then
        let count := min config.bMicro (frontierSize - cursor)
        let rest := ringSlotJobs slots (cursor + count)
        ({ slot := slot
           lane := lane
           parentBase := cursor
           count := count } :: rest.1, rest.2)
      else
        let rest := ringSlotJobs slots cursor
        ({ slot := slot
           lane := lane
           parentBase := 0
           count := 0 } :: rest.1, rest.2)

/-
  The ring takes the next parents of the frontier, slot by
  slot.
-/
def Rank.launchRing (ring : Nat) (rank : Rank) : Rank :=
  let launch :=
    ringSlotJobs config frontierSize
      (List.range config.ringSlotCount)
      rank.rings.frontierCursor
  { rank with
    device :=
      { rank.device with
        ringBusy :=
          Function.update rank.device.ringBusy ring true }
    rings :=
      { rank.rings with
        state :=
          Function.update rank.rings.state ring .stream1Running
        running := rank.rings.running ++ [ring]
        frontierCursor := launch.2 }
    trace :=
      { rank.trace with
        ringLaunches := rank.trace.ringLaunches ++ [launch.1]
        ringEvents :=
          rank.trace.ringEvents ++ [.launched ring] } }

/- A ring also needs its graph templates. -/
def launchRingIfFree (ring : Nat) : Dispatch Bool := do
  let rank ← get
  if rank.rings.frontierCursor < frontierSize ∧
      rank.rings.state ring = .free then do
    let rank ← observe config
    if rank.device.templateBusy ring then pure false
    else do
      modify (Rank.launchRing config frontierSize ring)
      pure true
  else pure false

/- Every free ring is tried, until the frontier is out. -/
def launchFreeRings : Dispatch Bool := do
  let rank ← get
  if rank.stopRequested then pure false
  else
    anyOf (List.range config.ringCount)
      (launchRingIfFree config frontierSize)

----------------
-- The Pending Queue
----------------

/- Take a shard of the ready list over. -/
def Stream4Queue.enqueue
    (queue : Stream4Queue)
    (shard : Nat) : Except Exception Stream4Queue :=
  if config.storageShardCount ≤ shard then
    .error
      (.runtimeError
        ("stream3 ready shard index exceeds storage shard " ++
          "count"))
  else if config.geometry.shardCount ≤ logicalShard shard then
    .error
      (.runtimeError
        ("stream3 ready shard logical index exceeds shard " ++
          "count"))
  else if queue.pendingQueued shard then .ok queue
  else
    .ok
      { queue with
        pendingQueued :=
          Function.update queue.pendingQueued shard true
        pending := queue.pending ++ [shard] }

/- The list of full banks is read once and emptied. -/
def Rank.consumeReadyList (rank : Rank) : Rank :=
  { rank with device := { rank.device with readyShardList := [] } }

/- Did the pending queue grow? -/
def appendStream3ReadyQueue : Dispatch Bool := do
  let rank ← observe config
  let ready := rank.device.readyShardList
  if ready = [] then pure false
  else if config.storageShardCount < ready.length then
    fail "stream3 ready shard count exceeds storage shard count"
  else do
    modify Rank.consumeReadyList
    stepQueue fun queue => do
      let next ← ready.foldlM (Stream4Queue.enqueue config) queue
      pure (decide (next.pending ≠ queue.pending), next)

/-
  The first pending shard that may be launched. Entries that are
  no longer queued are dropped on the way.
-/
def Stream4Queue.takeLaunchable
    (queue : Stream4Queue) :
    List Nat → List Nat →
      Except Exception (Option Nat × Stream4Queue)
  | passed, [] => .ok (none, { queue with pending := passed })
  | passed, shard :: rest =>
      if config.storageShardCount ≤ shard then
        .error
          (.runtimeError
            ("pending stream4 shard index exceeds storage " ++
              "shard count"))
      else if
          config.geometry.shardCount ≤ logicalShard shard then
        .error
          (.runtimeError
            ("pending stream4 shard logical index exceeds " ++
              "shard count"))
      else if queue.pendingQueued shard = false then
        queue.takeLaunchable passed rest
      else if queue.logicalRunning (logicalShard shard) then
        queue.takeLaunchable (passed ++ [shard]) rest
      else
        .ok
          (some shard,
            { queue with
              pending := passed ++ rest
              pendingQueued :=
                Function.update queue.pendingQueued shard
                  false })

/- The first bank in the queue whose shard has no job. -/
def takeLaunchablePendingStream4Shard :
    Dispatch (Option Nat) :=
  stepQueue fun queue =>
    queue.takeLaunchable config [] queue.pending

/- The shard runs on the slot. -/
def Stream4Queue.run
    (shard slot : Nat)
    (queue : Stream4Queue) : Stream4Queue :=
  { queue with
    logicalRunning :=
      Function.update queue.logicalRunning (logicalShard shard)
        true
    logicalRunningShard :=
      Function.update queue.logicalRunningShard
        (logicalShard shard) shard
    slotShard := Function.update queue.slotShard slot shard
    busySlots := queue.busySlots ++ [slot] }

/-
  The device gets the job; the trace keeps which bank was
  launched and why.
-/
def Rank.launchStream4
    (event : BankEvent)
    (shard slot : Nat)
    (rank : Rank) : Rank :=
  { rank with
    stream4 := rank.stream4.run shard slot
    device :=
      { rank.device with
        slotJob :=
          Function.update rank.device.slotJob slot
            (some shard) }
    trace :=
      { rank.trace with
        bankEvents := rank.trace.bankEvents ++ [event] } }

/- A shard has one job at a time. -/
def launchStream4ShardOnSlot
    (event : BankEvent)
    (shard slot : Nat) : Dispatch PUnit := do
  let rank ← get
  if rank.stream4.logicalRunning (logicalShard shard) then
    fail "stream4 launch violates logical shard running guard"
  else modify (Rank.launchStream4 event shard slot)

/- One launch for every slot that is free, while there is work. -/
def launchOnFreeSlots : List Nat → Dispatch Bool
  | [] => pure false
  | _ :: slots => do
      let taken ← takeLaunchablePendingStream4Shard config
      match taken with
      | none => pure false
      | some shard => do
          let popped ← popFreeSlot
          match popped with
          | none => throw .undefined
          | some slot => do
              launchStream4ShardOnSlot (.launched shard) shard
                slot
              let _ ← launchOnFreeSlots slots
              pure true

/- Launch what is pending, as long as slots are free. -/
def launchPendingStream4Shards : Dispatch Bool := do
  let _ ← releaseCompletedStream4Slots config
  let rank ← get
  launchOnFreeSlots config rank.stream4.freeSlots

/- An unused slot goes back to the front. -/
def Rank.returnFreeSlot (slot : Nat) (rank : Rank) : Rank :=
  { rank with
    stream4 :=
      { rank.stream4 with
        freeSlots := slot :: rank.stream4.freeSlots } }

/- A launch that waits for a slot; there may be no shard. -/
def launchBlocking : Dispatch PUnit := do
  let slot ← acquireStream4SlotBlocking config fuel
  let taken ← takeLaunchablePendingStream4Shard config
  match taken with
  | none => modify (Rank.returnFreeSlot slot)
  | some shard =>
      launchStream4ShardOnSlot (.launched shard) shard slot

/- One round of the drain; `true` when nothing is pending. -/
def drainRound : Dispatch Bool := do
  let rank ← get
  if rank.stream4.pending = [] then pure true
  else do
    let _ ← launchPendingStream4Shards config
    let rank ← get
    if rank.stream4.pending = [] then pure false
    else if rank.stream4.busySlots = [] then
      fail
        ("stream4 pending queue has no launchable shard and no " ++
          "running slot")
    else do
      launchBlocking config fuel
      pure false

/-
  Launch and wait until nothing is pending and no slot is
  busy.
-/
def drainPendingStream4Shards : Dispatch PUnit := do
  repeatUntil .stalled fuel (drainRound config fuel)
  waitAllStream4Slots config fuel

/- The bank is owned by the sort from here on. -/
def Rank.ownBank (shard : Nat) (rank : Rank) : Rank :=
  { rank with
    device :=
      { rank.device with
        banks :=
          { rank.device.banks with
            processingFlag :=
              Function.update rank.device.banks.processingFlag
                shard 1 } } }

/- Sort one bank whatever it holds. -/
def pressureFlushShard (shard : Nat) : Dispatch PUnit := do
  let slot ← acquireStream4SlotBlocking config fuel
  modify (Rank.ownBank shard)
  launchStream4ShardOnSlot (.pressureLaunched shard) shard slot
  waitAllStream4Slots config fuel

/- Sort every bank: first what is pending, then bank by bank. -/
def pressureFlushStream4 : Dispatch PUnit := do
  drainPendingStream4Shards config fuel
  waitAllStream4Slots config fuel
  forEach (List.range config.storageShardCount)
    (pressureFlushShard config fuel)
  throwIfStreamFatalError config "pressure_compact_sort"

----------------
-- Collectives
----------------

/- What the ranks do together is kept in its order. -/
def Rank.record (event : CollectiveEvent) (rank : Rank) : Rank :=
  { rank with
    trace :=
      { rank.trace with
        collectives := rank.trace.collectives ++ [event] } }

/- The reply was used. -/
def Rank.dropReply (rank : Rank) : Rank :=
  { rank with replies := rank.replies.tail }

/- The host waits for the answer to what it issued last. -/
def answer : Dispatch Reply := do
  let rank ← observe config
  match rank.replies with
  | [] => throw .stalled
  | reply :: _ => do
      modify Rank.dropReply
      pure reply

/-
  One collective of all ranks, with what this one contributes
  and what came back.
-/
def allReduce
    (collective : Collective)
    (contribution : Nat) : Dispatch Nat := do
  modify (Rank.record (.issued collective contribution))
  let reply ← answer config
  modify (Rank.record (.reduced reply.value))
  pure reply.value

/-
  Several ranks count jobs against their own banks; a rank
  alone goes by the configured period.
-/
def periodicThresholdDue (rank : Rank) : Bool :=
  let localPeriod :=
    if config.multiRank then max 1 config.storageShardCount
    else config.globalThresholdUpdatePeriodShards
  decide
    (localPeriod ≠ 0 ∧
      localPeriod ≤ rank.stream4.jobsSinceThresholdUpdate)

/- The count starts again. -/
def Rank.clearThresholdJobs (rank : Rank) : Rank :=
  { rank with
    stream4 :=
      { rank.stream4 with jobsSinceThresholdUpdate := 0 } }

/- Only an update asked for by pressure sorts first. -/
def pressureFlushIf (exact : Bool) : Dispatch PUnit :=
  if exact then pressureFlushStream4 config fuel else pure ⟨⟩

/-
  What this rank asks for: nothing, an update, or an update
  with a flush.
-/
def localRequest
    (forceLocalRequest capacityPressure : Bool)
    (rank : Rank) : Nat :=
  if forceLocalRequest then
    if capacityPressure then 2 else 1
  else if periodicThresholdDue config rank then 1
  else 0

/- The update all ranks make when one of them asks for it. -/
def updateThreshold (globalRequest : Nat) : Dispatch PUnit := do
  let exact := decide (globalRequest = 2)
  pressureFlushIf config fuel exact
  let _ ← allReduce config (.thresholdUpdate exact) 0
  pressureFlushIf config fuel exact
  modify Rank.clearThresholdJobs

/-
  All ranks take part in the request, and all or none update.
-/
def maybeRunStream5ThresholdUpdate
    (forceLocalRequest capacityPressure : Bool) :
    Dispatch PUnit := do
  if config.multiRank then do
    let rank ← get
    let globalRequest ←
      allReduce config .thresholdRequest
        (localRequest config forceLocalRequest capacityPressure
          rank)
    if globalRequest = 0 then pure ⟨⟩
    else updateThreshold config fuel globalRequest
  else pure ⟨⟩

----------------
-- Rounds Of Stream 3 And Stream 5
----------------

/- The round has its room. -/
def Rank.reserve (rank : Rank) : Rank :=
  { rank with rounds := { rank.rounds with reserved := true } }

/-
  The room is looked for once more after the update, and then
  demanded.
-/
def requireRoom (room : Bool) : Dispatch PUnit := do
  if room then pure ⟨⟩
  else do
    let late ← stream3HasWritableBuffer config config.roundCapacity
    if late then pure ⟨⟩
    else
      fail
        ("Stream3 round cannot reserve local plus remote " ++
          "capacity before launch")

/-
  Before a round starts, every rank has room for what the
  round may bring.
-/
def reserveStream3Round : Dispatch PUnit := do
  let rank ← get
  if config.multiRank = false ∨ rank.rounds.reserved = true then
    pure ⟨⟩
  else do
    let _ ← releaseCompletedStream4Slots config
    let room ← stream3HasWritableBuffer config config.roundCapacity
    maybeRunStream5ThresholdUpdate config fuel (!room) true
    requireRoom config room
    modify Rank.reserve

/- A round without rows of its own has not reserved yet. -/
def reserveForZeroSend (zeroSend : Bool) : Dispatch PUnit :=
  if zeroSend then reserveStream3Round config fuel else pure ⟨⟩

/- Rings may be refilled while an exchange is under way. -/
def prefill : Dispatch PUnit := do
  if config.prefillBeforeWait then do
    let _ ← launchFreeRings config frontierSize
    pure ⟨⟩
  else pure ⟨⟩

/- The received rows go to the banks as the local ones did. -/
def collectRemote (rows : List Nat) : Dispatch PUnit := do
  if rows = [] then pure ⟨⟩
  else do
    modify (Rank.setStage (.collectRemote rows))
    await config Rank.stream3Done
    throwIfStreamFatalError config "stream3_remote_recv_collect"
    let _ ← appendStream3ReadyQueue config
    pure ⟨⟩

/- The round is over. -/
def Rank.finishRound (zeroSend : Bool) (rank : Rank) : Rank :=
  { rank with
    rounds :=
      { reserved := false
        completed := rank.rounds.completed + 1 }
    trace :=
      { rank.trace with
        zeroSends := rank.trace.zeroSends ++ [zeroSend] } }

/- The send capacity of a ring is a batch of stream 3. -/
def checkRound (ring : Nat) (zeroSend : Bool) :
    Dispatch PUnit := do
  let rank ← get
  if rank.rounds.reserved = false then
    fail "unreserved Stream3 exchange"
  else if config.stream5SlotCount ≤ ring then
    fail "stream5 exchange ring exceeds slot count"
  else if zeroSend = false ∧
      config.stream3BatchCandidates < rank.device.sendTotal then
    fail "stream5 send count exceeds slot capacity"
  else pure ⟨⟩

/- The counts are exchanged while the rings are filled again. -/
def exchangeCounts : Dispatch (List Nat) := do
  modify (Rank.record (.issued .countExchange 0))
  prefill config frontierSize
  let reply ← answer config
  modify (Rank.record .exchanged)
  if config.stream5RecvSlotCapacity < reply.rows.length then
    fail "stream5 recv count exceeds slot capacity"
  else pure reply.rows

/- The rows are exchanged in the same way. -/
def exchangePayload : Dispatch PUnit := do
  modify (Rank.record (.issued .payloadExchange 0))
  prefill config frontierSize
  let _ ← answer config
  modify (Rank.record .exchanged)

/- One round. A rank alone exchanges nothing. -/
def runStream5ExchangeAndCollect
    (ring : Nat)
    (zeroSend : Bool) : Dispatch PUnit := do
  if config.multiRank then do
    reserveForZeroSend config fuel zeroSend
    checkRound config ring zeroSend
    let rows ← exchangeCounts config frontierSize
    exchangePayload config frontierSize
    collectRemote config rows
    modify (Rank.finishRound zeroSend)
  else pure ⟨⟩

/- A single rank updates its threshold between the jobs. -/
def forcePeriodicThresholdUpdate : Dispatch PUnit := do
  let rank ← get
  if config.multiRank then pure ⟨⟩
  else if rank.rings.active.isSome then
    fail
      ("periodic threshold update requested while stream3 is " ++
        "active")
  else do
    waitAllStream4Slots config fuel
    modify Rank.clearThresholdJobs

/-
  A rank alone updates when the period is over and no ring is
  in the pass.
-/
def maybeUpdateThreshold : Dispatch Bool := do
  let rank ← get
  if config.multiRank = true ∨
      periodicThresholdDue config rank = false ∨
      rank.rings.active.isSome = true then
    pure false
  else do
    drainPendingStream4Shards config fuel
    forcePeriodicThresholdUpdate config fuel
    pure true

----------------
-- Stream 3
----------------

/- What a single rank does when no bank has room. -/
def relievePressure : Dispatch Bool := do
  modify (Rank.setStage (.buildReadyQueue false 0))
  await config Rank.stream3Done
  throwIfStreamFatalError config "stream3_backpressure_ready_queue"
  let queued ← appendStream3ReadyQueue config
  let launched ← launchPendingStream4Shards config
  pure (queued || launched)

/- The ring leaves the queue and enters the pass. -/
def Rank.launchStream3 (ring : Nat) (rank : Rank) : Rank :=
  { rank with
    device := { rank.device with stage := .collectLocal }
    rings :=
      { rank.rings with
        state :=
          Function.update rank.rings.state ring .stream3Running
        ready := rank.rings.ready.tail
        active := some ring
        stream3JobsLaunched :=
          rank.rings.stream3JobsLaunched + 1 } }

/-
  The front of the queue is launched; `front` of an empty
  queue is undefined.
-/
def launchStream3Ring : Dispatch Bool := do
  let rank ← get
  match rank.rings.ready with
  | [] => throw .undefined
  | ring :: _ =>
      if rank.rings.state ring = .readyForStream3 then do
        modify (Rank.launchStream3 ring)
        pure true
      else fail "stream3 ready queue contains a non-ready ring"

/-
  Without room a single rank first relieves the pressure. It
  launches all the same when nothing else could make room.
-/
def launchUnderPressure : Dispatch Bool := do
  let writable ← stream3HasWritableBuffer config 0
  if writable then launchStream3Ring
  else do
    let relieved ← relievePressure config
    let rank ← get
    if relieved = true ∨ rank.stream4.pending ≠ [] ∨
        rank.stream4.busySlots ≠ [] then
      pure relieved
    else launchStream3Ring

/-
  One ring is in the pass at a time. Several ranks have
  reserved; a rank alone looks at its banks again.
-/
def tryLaunchStream3 : Dispatch Bool := do
  let rank ← get
  if rank.rings.active.isSome = true ∨ rank.rings.ready = [] then
    pure false
  else do
    reserveStream3Round config fuel
    if config.multiRank then launchStream3Ring
    else launchUnderPressure config

/- No ring is in the pass. -/
def Rank.clearActive (rank : Rank) : Rank :=
  { rank with rings := { rank.rings with active := none } }

/- The ring can be filled again. -/
def Rank.freeRing (ring : Nat) (rank : Rank) : Rank :=
  { rank with
    rings :=
      { rank.rings with
        state := Function.update rank.rings.state ring .free }
    trace :=
      { rank.trace with
        ringEvents :=
          rank.trace.ringEvents ++ [.stream3Passed ring] } }

/- After a stop no more banks are queued. -/
def appendUnlessStopped : Dispatch PUnit := do
  let rank ← get
  if rank.stopRequested then pure ⟨⟩
  else do
    let _ ← appendStream3ReadyQueue config
    pure ⟨⟩

/-
  The pass of a ring ended: its rows are exchanged before the
  ring is freed.
-/
def completeStream3Ring : Dispatch PUnit := do
  let rank ← get
  match rank.rings.active with
  | none => fail "stream3 completion without active ring"
  | some ring => do
      throwIfStreamFatalError config "stream3_ring_complete"
      modify Rank.clearActive
      runStream5ExchangeAndCollect config frontierSize fuel ring
        false
      modify (Rank.freeRing ring)
      appendUnlessStopped config

/- The pass is only completed when the device is done. -/
def releaseStream3 : Dispatch Bool := do
  let rank ← get
  if rank.rings.active.isSome then do
    let rank ← observe config
    if rank.stream3Done then do
      completeStream3Ring config frontierSize fuel
      pure true
    else pure false
  else pure false

/- The device is waited for. -/
def waitStream3 : Dispatch PUnit := do
  await config Rank.stream3Done
  completeStream3Ring config frontierSize fuel

----------------
-- Completed Rings
----------------

/- The oldest running ring is ready for stream 3. -/
def Rank.readyRing (ring : Nat) (rank : Rank) : Rank :=
  { rank with
    rings :=
      { rank.rings with
        state :=
          Function.update rank.rings.state ring .readyForStream3
        running := rank.rings.running.tail
        ready := rank.rings.ready ++ [ring] } }

/- The rings are looked at in order, up to one not yet done. -/
def releaseRings : List Nat → Dispatch Bool
  | [] => pure false
  | ring :: rings => do
      let rank ← observe config
      if rank.device.ringBusy ring then pure false
      else do
        modify (Rank.readyRing ring)
        let _ ← releaseRings rings
        pure true

/- All running rings are looked at. -/
def releaseCompletedRings : Dispatch Bool := do
  let rank ← get
  releaseRings config rank.rings.running

/- The ring that was launched first is waited for. -/
def waitOldestRing : Dispatch PUnit := do
  let rank ← get
  match rank.rings.running with
  | [] => throw .undefined
  | ring :: _ => do
      await config fun rank => !rank.device.ringBusy ring
      modify (Rank.readyRing ring)
      let _ ← releaseCompletedRings config
      let _ ← refreshStopRequested config
      pure ⟨⟩

/- After a stop the rings in the queue are freed unread. -/
def Rank.discardReadyRings (rank : Rank) : Rank :=
  { rank with
    rings :=
      { rank.rings with
        state := fun ring =>
          if ring ∈ rank.rings.ready ∧
              rank.rings.state ring = .readyForStream3 then
            .free
          else rank.rings.state ring
        ready := [] } }

/- Whether any ring was freed. -/
def discardReadyRingsAfterStop : Dispatch Bool := do
  let rank ← get
  modify Rank.discardReadyRings
  pure
    (rank.rings.ready.any fun ring =>
      decide (rank.rings.state ring = .readyForStream3))

----------------
-- The Main Loop
----------------

/- Some ring is filled, waiting or in the pass. -/
def anyActiveRing (rank : Rank) : Bool :=
  (List.range config.ringCount).any fun ring =>
    decide (rank.rings.state ring ≠ .free)

/- There is something left to launch, to pass or to sort. -/
def keepsRunning (rank : Rank) : Bool :=
  (!rank.stopRequested &&
      decide (rank.rings.frontierCursor < frontierSize)) ||
    anyActiveRing config rank ||
    rank.rings.active.isSome ||
    decide (rank.stream4.busySlots ≠ [])

/- Whether a stop came is asked when a ring was filled. -/
def discardIfStopped (ringsCompleted : Bool) : Dispatch Bool := do
  if ringsCompleted then do
    let stopped ← refreshStopRequested config
    if stopped then discardReadyRingsAfterStop else pure false
  else pure false

/- After a stop request only what is under way is waited for. -/
def waitAfterStop (progressed : Bool) : Dispatch PUnit := do
  let rank ← get
  if progressed then pure ⟨⟩
  else if rank.rings.active.isSome then
    waitStream3 config frontierSize fuel
  else if rank.rings.running ≠ [] then waitOldestRing config
  else if rank.stream4.busySlots ≠ [] then do
    let _ ← waitCompletedStream4Slot config fuel
    pure ⟨⟩
  else do
    let _ ← discardReadyRingsAfterStop
    pure ⟨⟩

/-
  Without progress the loop waits: for the pass, else for a
  ring, else for a slot.
-/
def waitForProgress (progressed : Bool) : Dispatch PUnit := do
  let rank ← get
  if progressed then pure ⟨⟩
  else if rank.rings.active.isSome then
    waitStream3 config frontierSize fuel
  else if rank.rings.running ≠ [] then waitOldestRing config
  else if rank.stream4.busySlots ≠ [] then do
    let _ ← waitCompletedStream4Slot config fuel
    pure ⟨⟩
  else pure ⟨⟩

/- All that a round starts while the depth goes on. -/
def startWork (progressed : Bool) : Dispatch PUnit := do
  let updated ← maybeUpdateThreshold config fuel
  let shards ← launchPendingStream4Shards config
  let rings ← launchFreeRings config frontierSize
  let stream3 ← tryLaunchStream3 config fuel
  let again ← maybeUpdateThreshold config fuel
  waitForProgress config frontierSize fuel
    (progressed || updated || shards || rings || stream3 || again)

/- One round of the event loop; `true` when it is left. -/
def eventLoopRound : Dispatch Bool := do
  let rank ← get
  if keepsRunning config frontierSize rank then do
    let slots ← releaseCompletedStream4Slots config
    let rings ← releaseCompletedRings config
    let stream3 ← releaseStream3 config frontierSize fuel
    let discarded ← discardIfStopped config rings
    let progressed := slots || rings || stream3 || discarded
    let rank ← get
    if rank.stopRequested then do
      waitAfterStop config frontierSize fuel progressed
      pure false
    else do
      startWork config frontierSize fuel progressed
      pure false
  else pure true

----------------
-- The End Of A Depth
----------------

/- A rank without work left still takes part in every round. -/
def zeroSendRound (globalRounds : Nat) : Dispatch Bool := do
  let rank ← get
  if config.multiRank = true ∧
      rank.rounds.completed < globalRounds then do
    runStream5ExchangeAndCollect config frontierSize fuel
      (rank.rounds.completed % config.stream5SlotCount) true
    let _ ← launchPendingStream4Shards config
    pure false
  else pure true

/- Every rank enters the request at the boundary. -/
def boundaryRequest : Dispatch PUnit := do
  if config.multiRank then do
    let _ ← releaseCompletedStream4Slots config
    let rank ← get
    maybeRunStream5ThresholdUpdate config fuel
      (decide (rank.stream4.jobsSinceThresholdUpdate ≠ 0)) false
  else pure ⟨⟩

/- Some bank has rows that were not sorted. -/
def anyDirty (copies : HostCopies) : Bool :=
  (List.range config.storageShardCount).any fun physical =>
    decide (copies.dirty physical ≠ 0)

/-
  After a flush the threshold is updated only if something was
  sorted or is left.
-/
def updateAfterFlush : Dispatch PUnit := do
  let rank ← get
  if rank.stream4.jobsSinceThresholdUpdate ≠ 0 ∧
      (periodicThresholdDue config rank = true ∨
        anyDirty config rank.copies = true) then
    forcePeriodicThresholdUpdate config fuel
  else pure ⟨⟩

/- Nothing is spilled with two banks; dirty rows go on. -/
def flushRound : Dispatch Bool := do
  modify (Rank.setStage (.buildReadyQueue true 0))
  await config Rank.stream3Done
  throwIfStreamFatalError config "final_spill_drain"
  let _ ← appendStream3ReadyQueue config
  drainPendingStream4Shards config fuel
  copyCounts config
  updateAfterFlush config fuel
  let rank ← get
  pure (!anyDirty config rank.copies)

/-
  The source counts its rounds and throws when they are used
  up.
-/
def flushRounds : Nat → Dispatch PUnit
  | 0 =>
      fail "final stream3 spill flush did not converge"
  | rounds + 1 => do
      let converged ← flushRound config fuel
      if converged then pure ⟨⟩ else flushRounds rounds

/- No bank may have more rows than it has room for. -/
def checkCleanCounts : Dispatch PUnit := do
  let rank ← get
  if (List.range config.storageShardCount).any fun physical =>
      decide
        (config.geometry.shardCapacity <
          rank.copies.clean physical) then
    fail "final clean snapshot exceeds physical shard capacity"
  else pure ⟨⟩

/-
  The end of a depth: the rounds of the other ranks, the last
  updates, and the flush of every bank.
-/
def finishDepth (globalRounds : Nat) : Dispatch PUnit := do
  repeatUntil .stalled fuel
    (zeroSendRound config frontierSize fuel globalRounds)
  boundaryRequest config fuel
  drainPendingStream4Shards config fuel
  forcePeriodicThresholdUpdate config fuel
  flushRounds config fuel (config.storageShardCount * 4 + 8)
  checkCleanCounts config

/- The most rounds any rank has to make. -/
def globalExchangeRounds : Dispatch Nat :=
  let localRounds := config.localExchangeRounds frontierSize
  if config.multiRank then
    allReduce config .roundCount localRounds
  else pure localRounds

/- The flag is cleared before a depth. -/
def Rank.clearFatalError (rank : Rank) : Rank :=
  { rank with
    device := { rank.device with fatalErrorFlag := false } }

/- One depth of the search. -/
def runDepth : Dispatch PUnit := do
  if config.inferenceParallelism = 0 ∨
      config.ringSlotCount < config.inferenceParallelism then
    throw
      (.thrown
        (.invalidArgument
          ("Stream1 concurrency resources do not match runtime " ++
            "config")))
  else do
    let globalRounds ← globalExchangeRounds config frontierSize
    modify Rank.clearFatalError
    let _ ← launchFreeRings config frontierSize
    repeatUntil .stalled fuel
      (eventLoopRound config frontierSize fuel)
    let rank ← get
    if rank.stopRequested then waitAllStream4Slots config fuel
    else finishDepth config frontierSize fuel globalRounds

end Program

end Dispatcher

end BeamSearch
