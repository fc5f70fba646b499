import BeamSearch.Stream3.Append
import BeamSearch.Lib.Hoare

/-
  The state of one rank while it dispatches a depth.

  The device holds the banks, the ready list and the work that
  its streams still have to do; the host holds its queues, its
  ring states and its copies of device arrays. Device work
  finishes at any time, as the schedule of events says. A trace
  records what happened.

  Main declarations:
    * `DispatchConfig`
    * `Rank`
    * `Rank.deviceEvent`
-/

namespace BeamSearch

open Stream3

namespace Dispatcher

----------------
-- Configuration
----------------

/- What the dispatcher reads of the memory plan; two banks. -/
structure DispatchConfig where
  worldSize : Nat
  geometry : ShardGeometry
  stream3BatchCandidates : Nat
  stream4TriggerCandidates : Nat
  stream4ActiveSortSlots : Nat
  stream5RecvSlotCapacity : Nat
  ringCount : Nat
  ringSlotCount : Nat
  inferenceParallelism : Nat
  bMicro : Nat
  globalThresholdUpdatePeriodShards : Nat
  globalBeamWidthEffective : Nat
  prefillBeforeWait : Bool
  capacity_lt : geometry.shardCapacity < 2 ^ 32
deriving DecidableEq, Repr

namespace DispatchConfig

/- Several ranks search together. -/
def multiRank (config : DispatchConfig) : Bool :=
  decide (1 < config.worldSize)

/- A bank for each buffer of each shard. -/
def storageShardCount (config : DispatchConfig) : Nat :=
  config.geometry.storageShardCount

/- The receive slots: one for each ring where ranks exchange. -/
def stream5SlotCount (config : DispatchConfig) : Nat :=
  if config.multiRank then config.ringCount else 1

/- The parents that a round takes at most. -/
def parentsPerStream3Round (config : DispatchConfig) : Nat :=
  config.ringSlotCount * config.bMicro

/-
  The rounds that this rank needs for its frontier, rounded
  up.
-/
def localExchangeRounds
    (config : DispatchConfig)
    (frontierSize : Nat) : Nat :=
  if frontierSize = 0 then
    0
  else
    (frontierSize + config.parentsPerStream3Round - 1) /
      config.parentsPerStream3Round

/- What the ring graph's queue build reserves for remote rows. -/
def receiveReserve (config : DispatchConfig) : Nat :=
  if config.multiRank then config.stream5RecvSlotCapacity else 0

/- What the admission of a round has to find free. -/
def roundCapacity (config : DispatchConfig) : Nat :=
  config.stream3BatchCandidates + config.stream5RecvSlotCapacity

end DispatchConfig

----------------
-- The Device
----------------

/- What stream 3 still has to do before its event is done. -/
inductive Stream3Stage where
  | idle
  | collectLocal
  | buildReadyQueue (forceFlush : Bool) (receiveReserve : Nat)
  | collectRemote (rows : List Nat)
deriving DecidableEq, Repr

/-
  `slotJob` is the bank a Stream 4 slot still sorts; without one
  its event is done. `ringBusy` and `templateBusy` stand for the
  events of a ring and of its graph templates.
-/
structure Device where
  banks : Banks
  readyShardList : List Nat
  fatalErrorFlag : Bool
  stage : Stream3Stage
  slotJob : Nat → Option Nat
  ringBusy : Nat → Bool
  templateBusy : Nat → Bool
  sendTotal : Nat
  stopFlag : Bool

/- A finished sort: at most the bank's rows are left, all clean. -/
def completeBank
    (banks : Banks)
    (physical cleanCount : Nat) : Banks :=
  { banks with
    cleanCount :=
      Function.update banks.cleanCount physical
        (min cleanCount (banks.existing physical))
    dirtyCount := Function.update banks.dirtyCount physical 0
    processingFlag :=
      Function.update banks.processingFlag physical 0 }

----------------
-- The Host
----------------

/-
  The queue of the sorts: what is pending, what runs on which
  slot, and which slots are free.
-/
structure Stream4Queue where
  pending : List Nat
  pendingQueued : Nat → Bool
  logicalRunning : Nat → Bool
  logicalRunningShard : Nat → Nat
  slotShard : Nat → Nat
  freeSlots : List Nat
  busySlots : List Nat
  jobsSinceThresholdUpdate : Nat

/- Where a ring is. -/
inductive RingState where
  | free
  | stream1Running
  | readyForStream3
  | stream3Running
deriving DecidableEq, Repr

/- The parents that one slot of a ring was given. -/
structure RingSlotJob where
  slot : Nat
  lane : Nat
  parentBase : Nat
  count : Nat
deriving DecidableEq, Repr

/- The queue of the rings. -/
structure RingQueue where
  state : Nat → RingState
  running : List Nat
  ready : List Nat
  active : Option Nat
  frontierCursor : Nat
  stream3JobsLaunched : Nat

/- The round that is open and those that ended. -/
structure Rounds where
  reserved : Bool
  completed : Nat

/- The host's copies of the three bank arrays. -/
structure HostCopies where
  clean : Nat → Nat
  dirty : Nat → Nat
  processing : Nat → Nat

----------------
-- Collectives
----------------

/- What all ranks do together. -/
inductive Collective where
  | roundCount
  | thresholdRequest
  | thresholdUpdate (exact : Bool)
  | countExchange
  | payloadExchange
deriving DecidableEq, Repr

/-
  What a rank gets back: the value of an all-reduce, and the
  shards of the rows a count exchange announces.
-/
structure Reply where
  value : Nat
  rows : List Nat
deriving DecidableEq, Repr

/- What one rank sees of it. -/
inductive CollectiveEvent where
  | issued (collective : Collective) (contribution : Nat)
  | reduced (value : Nat)
  | exchanged
deriving DecidableEq, Repr

----------------
-- The Trace
----------------

/- The two events of a ring's life that its order is told by. -/
inductive RingEvent where
  | launched (ring : Nat)
  | stream3Passed (ring : Nat)
deriving DecidableEq, Repr

/- The events of a bank's life. -/
inductive BankEvent where
  | appended (physical count : Nat)
  | listed (physical : Nat)
  | launched (physical : Nat)
  | pressureLaunched (physical : Nat)
  | passed (physical : Nat)
deriving DecidableEq, Repr

/-
  `listOverwritten`: a queue build started over a list the host
  had not consumed. `staleCopy`: when the host copied the dirty
  counts, some bank's clean count had grown over the copy.
  `zeroSends` says of every exchange round whether it was one.
-/
structure Trace where
  ringLaunches : List (List RingSlotJob)
  ringEvents : List RingEvent
  bankEvents : List BankEvent
  collectives : List CollectiveEvent
  zeroSends : List Bool
  listOverwritten : Bool
  staleCopy : Bool

----------------
-- Ranks And Device Events
----------------

/- The steps that the device can make by itself. -/
inductive DeviceEvent where
  | stream4Complete (slot cleanCount : Nat)
  | ringComplete (ring : Nat)
  | stream3Advance (rows : List Nat) (sendTotal : Nat)
  | templates (ring : Nat) (busy : Bool)
  | stop
deriving DecidableEq, Repr

/-
  The state of one rank: its device, its queues, its copies
  and its trace.
-/
structure Rank where
  device : Device
  stream4 : Stream4Queue
  rings : RingQueue
  rounds : Rounds
  copies : HostCopies
  stopRequested : Bool
  trace : Trace
  schedule : List (List DeviceEvent)
  replies : List Reply

/- The bank events of one append. -/
def appendEvents
    (geometry : ShardGeometry)
    (banks : Banks)
    (groups : List (Nat × Nat)) : List BankEvent :=
  groups.map fun group =>
    .appended (appendBank geometry banks group) group.2

/- Append rows on the device; a fatal append writes nothing. -/
def Rank.collect
    (config : DispatchConfig)
    (rows : List Nat)
    (rank : Rank) : Rank :=
  let device := rank.device
  let groups := groupsOf config.geometry.shardCount rows
  let result :=
    partitionAppend config.geometry device.banks groups
      device.fatalErrorFlag
  { rank with
    device :=
      { device with
        banks := result.banks
        fatalErrorFlag := result.fatal }
    trace :=
      { rank.trace with
        bankEvents :=
          if result.fatal then
            rank.trace.bankEvents
          else
            rank.trace.bankEvents ++
              appendEvents config.geometry device.banks
                groups } }

/- What the kernel of the ready queue is given. -/
def readyQueueSizes
    (config : DispatchConfig)
    (forceFlush : Bool)
    (receiveReserve : Nat) : ReadyQueueSizes :=
  { geometry := config.geometry
    stream3BatchCandidates := config.stream3BatchCandidates
    stream4TriggerCandidates := config.stream4TriggerCandidates
    forceDirtyFlush := forceFlush
    forceCleanFlush := forceFlush
    receiveReserve := receiveReserve }

/- Build the ready list over whatever the old list holds. -/
def Rank.buildReadyQueue
    (config : DispatchConfig)
    (forceFlush : Bool)
    (receiveReserve : Nat)
    (rank : Rank) : Rank :=
  let queue :=
    buildReadyShardQueue
      (readyQueueSizes config forceFlush receiveReserve)
      rank.device.banks
  { rank with
    device :=
      { rank.device with
        banks := queue.banks
        readyShardList := queue.readyShardList }
    trace :=
      { rank.trace with
        bankEvents :=
          rank.trace.bankEvents ++
            queue.readyShardList.map .listed
        listOverwritten :=
          rank.trace.listOverwritten ||
            decide (rank.device.readyShardList ≠ []) } }

/- The stream is given work. -/
def Rank.setStage
    (stage : Stream3Stage)
    (rank : Rank) : Rank :=
  { rank with device := { rank.device with stage := stage } }

/-
  One step of the device. Events of work that is not there do
  nothing. The local append takes at most a batch of rows.

  A pass that ends releases its bank and finishes the event of its
  slot in one step. On the device its last kernel clears the flag
  of the bank and the event follows; that the flag may be seen
  clear while the slot still looks busy is left out.
-/
def Rank.deviceEvent
    (config : DispatchConfig)
    (rank : Rank)
    (event : DeviceEvent) : Rank :=
  match event with
  | .stream4Complete slot cleanCount =>
      match rank.device.slotJob slot with
      | none => rank
      | some physical =>
          { rank with
            device :=
              { rank.device with
                banks :=
                  completeBank rank.device.banks physical
                    cleanCount
                slotJob :=
                  Function.update rank.device.slotJob slot none }
            trace :=
              { rank.trace with
                bankEvents :=
                  rank.trace.bankEvents ++ [.passed physical] } }
  | .ringComplete ring =>
      { rank with
        device :=
          { rank.device with
            ringBusy :=
              Function.update rank.device.ringBusy ring false } }
  | .stream3Advance rows sendTotal =>
      match rank.device.stage with
      | .idle => rank
      | .collectLocal =>
          let rank :=
            rank.collect config
              (rows.take config.stream3BatchCandidates)
          { rank with
            device :=
              { rank.device with
                sendTotal := sendTotal
                stage :=
                  .buildReadyQueue false
                    config.receiveReserve } }
      | .buildReadyQueue forceFlush receiveReserve =>
          (rank.buildReadyQueue config forceFlush
            receiveReserve).setStage .idle
      | .collectRemote remote =>
          (rank.collect config remote).setStage .idle
  | .templates ring busy =>
      { rank with
        device :=
          { rank.device with
            templateBusy :=
              Function.update rank.device.templateBusy ring
                busy } }
  | .stop =>
      { rank with
        device := { rank.device with stopFlag := true } }

/- A depth starts with empty banks and free rings and slots. -/
def initialRank
    (config : DispatchConfig)
    (schedule : List (List DeviceEvent))
    (replies : List Reply) : Rank :=
  { device :=
      { banks :=
          { cleanCount := fun _ => 0
            dirtyCount := fun _ => 0
            processingFlag := fun _ => 0
            writeBufferIndex := fun _ => 0 }
        readyShardList := []
        fatalErrorFlag := false
        stage := .idle
        slotJob := fun _ => none
        ringBusy := fun _ => false
        templateBusy := fun _ => false
        sendTotal := 0
        stopFlag := false }
    stream4 :=
      { pending := []
        pendingQueued := fun _ => false
        logicalRunning := fun _ => false
        logicalRunningShard := fun _ => config.storageShardCount
        slotShard := fun _ => config.storageShardCount
        freeSlots := List.range config.stream4ActiveSortSlots
        busySlots := []
        jobsSinceThresholdUpdate := 0 }
    rings :=
      { state := fun _ => .free
        running := []
        ready := []
        active := none
        frontierCursor := 0
        stream3JobsLaunched := 0 }
    rounds := { reserved := false, completed := 0 }
    copies :=
      { clean := fun _ => 0
        dirty := fun _ => 0
        processing := fun _ => 0 }
    stopRequested := false
    trace :=
      { ringLaunches := []
        ringEvents := []
        bankEvents := []
        collectives := []
        zeroSends := []
        listOverwritten := false
        staleCopy := false }
    schedule := schedule
    replies := replies }

end Dispatcher

end BeamSearch
