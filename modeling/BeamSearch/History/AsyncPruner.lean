import BeamSearch.History.Prune
import BeamSearch.History.SlotTable

/-
  The native history in the memory mode.

  A committed layer waits in a slot for its copy, then for its
  writer, and is then published. Jobs take pairs of published
  layers out, prune them, and bring them back. What finishes
  when is up to the machine; the host only sees it when it
  polls.

  Main declarations:
    * `CpuCandidateHistory`
    * `pruneAdjacentDepths`
    * `pumpPruneJobs`, `pumpCompleted`
    * `commitSlot`, `finishAll`
    * `runEvents`
-/

namespace BeamSearch

open Hoare Layers

namespace History

namespace Async

----------------
-- State
----------------

/- A slot with the candidates in its host buffer. -/
structure Slot where
  host : List CandidateMeta
  depthIndex : Nat
  copyPending : Bool
  free : Bool
  writer : Option (List Entry)

/-
  What a job gives back: both layers and their sizes before
  and after.
-/
structure PruneResult where
  depthIndex : Nat
  previous : List Entry
  current : List Entry
  bytesBefore : Nat
  bytesAfter : Nat

/- A job with what its worker returns or throws. -/
structure PruneJob where
  depthIndex : Nat
  worker : Except Exception PruneResult

/-
  The vectors by depth have one length, `size`. `owners` lists
  the running jobs after every launch.
-/
structure CpuCandidateHistory where
  workerCount : Nat
  slotCapacity : Nat
  slotCount : Nat
  slots : Nat → Slot
  size : Nat
  depthCounts : Nat → Nat
  ramDepths : Nat → List Entry
  ramReady : Nat → Bool
  pruneDirty : Nat → Bool
  pruneJobs : List PruneJob
  bytesReceived : Nat
  bytesStored : Nat
  bytesStoredRam : Nat
  bytesPruned : Nat
  owners : List (List Nat)

/-
  How a call ends without returning: an exception, or a wait
  that never ends.
-/
inductive Stop where
  | thrown (exception : Exception)
  | outOfFuel

/- The history is the state. -/
abbrev HistoryM : Type → Type :=
  EStateM Stop CpuCandidateHistory

/- What has finished when the host looks. -/
structure Poll where
  copyDone : Nat → Bool
  writerDone : Nat → Bool
  jobDone : Nat → Bool

/- Waiting sees everything finished. -/
def waitAll : Poll where
  copyDone _ := true
  writerDone _ := true
  jobDone _ := true

/- A slot that was never used. -/
def freeSlot : Slot where
  host := []
  depthIndex := 0
  copyPending := false
  free := true
  writer := none

/- The history at its start. -/
def initializeHistory
    (capacity : UInt32)
    (slotCount workerCount : Nat) :
    Except Exception CpuCandidateHistory :=
  if capacity = 0 ∨ slotCount = 0 ∨ workerCount = 0 then
    .error
      (.runtimeError
        ("candidate history capacity, slot count, and worker " ++
          "count must be nonzero"))
  else
    .ok
      { workerCount := workerCount
        slotCapacity := capacity.toNat
        slotCount := slotCount
        slots := fun _ => freeSlot
        size := 0
        depthCounts := fun _ => 0
        ramDepths := fun _ => []
        ramReady := fun _ => false
        pruneDirty := fun _ => false
        pruneJobs := []
        bytesReceived := 0
        bytesStored := 0
        bytesStoredRam := 0
        bytesPruned := 0
        owners := [] }

----------------
-- Prune Jobs
----------------

/- A marked entry is appended; its mark becomes its place. -/
def pushStep
    (previous : List Entry)
    (s : List (Option Nat) × List Entry)
    (i : Nat) : List (Option Nat) × List Entry :=
  match s.1[i]?, previous[i]? with
  | some (some _), some e =>
      (s.1.set i (some s.2.length), s.2 ++ [e])
  | _, _ => s

/-
  One prune of two adjacent layers, as a worker computes it on
  its copies.
-/
def pruneAdjacentDepths
    (depthIndex : Nat)
    (previous current : List Entry) :
    Except Exception PruneResult := do
  let marked ←
    markParents
      (.runtimeError
        "candidate history prune parent index out of range")
      current (List.replicate previous.length none)
  let compacted :=
    (List.range previous.length).foldl (pushStep previous)
      (marked, [])
  pure
    { depthIndex := depthIndex
      previous := compacted.2
      current := current.map (remapParent compacted.1)
      bytesBefore := (previous.length + current.length) * 16
      bytesAfter :=
        (compacted.2.length + current.length) * 16 }

/- A job works on its layer and the next. -/
def PruneJob.usesDepth (job : PruneJob) (depth : Nat) : Bool :=
  job.depthIndex == depth || job.depthIndex + 1 == depth

/- Some job works on one of the two layers or on both. -/
def anyPruneJobUsesPair
    (h : CpuCandidateHistory)
    (depth : Nat) : Bool :=
  h.pruneJobs.any fun job =>
    job.usesDepth depth || job.usesDepth (depth + 1)

/- A finished job puts its layers back. -/
def applyResult
    (h : CpuCandidateHistory)
    (result : PruneResult) : CpuCandidateHistory :=
  let d := result.depthIndex
  let saved := result.bytesBefore - result.bytesAfter
  let dirty := Function.update h.pruneDirty d false
  { h with
    ramDepths :=
      Function.update
        (Function.update h.ramDepths d result.previous)
        (d + 1) result.current
    depthCounts :=
      Function.update
        (Function.update h.depthCounts d result.previous.length)
        (d + 1) result.current.length
    ramReady :=
      Function.update (Function.update h.ramReady d true)
        (d + 1) true
    pruneDirty :=
      if 0 < d then Function.update dirty (d - 1) true else dirty
    bytesStored := h.bytesStored - saved
    bytesPruned := h.bytesPruned + saved }

/- One pass over the running jobs; did any finish? -/
def finishJobs
    (poll : Poll) :
    (running todo : List PruneJob) →
    HistoryM Bool
  | _, [] => pure false
  | running, job :: todo =>
      if poll.jobDone job.depthIndex then
        match job.worker with
        | .error exception => throw (.thrown exception)
        | .ok result => do
            let h ← get
            if result.depthIndex + 1 ≥ h.size then
              throw
                (.thrown
                  (.runtimeError
                    ("candidate history prune result depth " ++
                      "index out of range")))
            else do
              set
                { applyResult h result with
                  pruneJobs := running ++ todo }
              let _ ← finishJobs poll running todo
              pure true
      else
        finishJobs poll (running ++ [job]) todo

/- The deepest dirty pair that is ready and not in a job. -/
def launchable (h : CpuCandidateHistory) : Option Nat :=
  (List.range (h.size - 1)).reverse.find? fun d =>
    h.pruneDirty d && h.ramReady d && h.ramReady (d + 1) &&
      !anyPruneJobUsesPair h d

/-
  A worker takes both layers; they are empty until it gives
  them back.
-/
def launch
    (h : CpuCandidateHistory)
    (d : Nat) : CpuCandidateHistory :=
  let jobs :=
    h.pruneJobs ++
      [⟨d, pruneAdjacentDepths d (h.ramDepths d)
        (h.ramDepths (d + 1))⟩]
  { h with
    ramDepths :=
      Function.update (Function.update h.ramDepths d []) (d + 1) []
    ramReady :=
      Function.update (Function.update h.ramReady d false)
        (d + 1) false
    pruneJobs := jobs
    owners := h.owners ++ [jobs.map PruneJob.depthIndex] }

/- Launch while there is a worker and a pair for it. -/
def launchJobs : (room : Nat) → HistoryM Bool
  | 0 => pure false
  | room + 1 => do
      let h ← get
      match launchable h with
      | none => pure false
      | some d => do
          set (launch h d)
          let _ ← launchJobs room
          pure true

/- Finish what is done, then launch what may be. -/
def pumpJobsOnce (poll : Poll) : HistoryM Bool := do
  let h ← get
  let finished ← finishJobs poll [] h.pruneJobs
  let h ← get
  let launched ←
    launchJobs (h.workerCount - h.pruneJobs.length)
  pure (finished || launched)

/-
  Waiting repeats the pass until nothing moves. A finished job
  replaces its dirty pair by the one below, so the passes are
  fewer than the dirty pairs can count in binary.
-/
def pumpPruneJobs (waiting : Bool) (poll : Poll) : HistoryM PUnit :=
  if waiting then do
    let h ← get
    repeatUntil Stop.outOfFuel (2 * 2 ^ h.size + 2) do
      let progressed ← pumpJobsOnce waitAll
      pure !progressed
  else do
    let _ ← pumpJobsOnce poll
    pure ⟨⟩

----------------
-- Slots
----------------

/- Only this slot changes. -/
def setSlot
    (h : CpuCandidateHistory)
    (i : Nat)
    (slot : Slot) : CpuCandidateHistory :=
  { h with slots := Function.update h.slots i slot }

/- The copy is there; the writer starts. -/
def startWriter (slot : Slot) : Slot :=
  { slot with
    copyPending := false
    writer := some (slot.host.map entry) }

/- The writer is done; the layer is published. -/
def publish
    (h : CpuCandidateHistory)
    (i : Nat)
    (data : List Entry) : CpuCandidateHistory :=
  let slot := h.slots i
  let d := slot.depthIndex
  { h with
    ramDepths := Function.update h.ramDepths d data
    ramReady := Function.update h.ramReady d true
    pruneDirty :=
      if 0 < d then Function.update h.pruneDirty (d - 1) true
      else h.pruneDirty
    slots :=
      Function.update h.slots i
        { slot with writer := none, free := true } }

/- A copy that is done lets its writer start. -/
def pollCopy (poll : Poll) (i : Nat) : HistoryM Bool := do
  let h ← get
  if (h.slots i).copyPending && poll.copyDone i then do
    set (setSlot h i (startWriter (h.slots i)))
    pure true
  else
    pure false

/- A writer that is done publishes its layer. -/
def pollWriter (poll : Poll) (i : Nat) : HistoryM Bool := do
  let h ← get
  let slot := h.slots i
  if slot.copyPending || slot.free then
    pure false
  else
    match slot.writer with
    | none => pure false
    | some data =>
        if poll.writerDone i then
          if slot.depthIndex ≥ h.size then
            throw
              (.thrown
                (.runtimeError
                  "candidate history RAM depth index missing"))
          else do
            set (publish h i data)
            pure true
        else
          pure false

/- First the copy of the slot, then its writer. -/
def pollSlot (poll : Poll) (i : Nat) : HistoryM Bool := do
  let copied ← pollCopy poll i
  let written ← pollWriter poll i
  pure (copied || written)

/- Every slot is polled. -/
def pollSlots (poll : Poll) : HistoryM Bool := do
  let h ← get
  anyOf (List.range h.slotCount) (pollSlot poll)

/- Waiting drains every slot in the first pass. -/
def pumpCompleted (waiting : Bool) (poll : Poll) :
    HistoryM PUnit := do
  if waiting then
    repeatUntil Stop.outOfFuel 2 do
      let progressed ← pollSlots waitAll
      pure !progressed
  else do
    let _ ← pollSlots poll
    pure ⟨⟩
  pumpPruneJobs waiting poll

/- The first free slot. -/
def findFree (h : CpuCandidateHistory) : Option Nat :=
  firstFree Slot.free h.slotCount h.slots

/- The slot is taken. -/
def takeSlot (h : CpuCandidateHistory) (i : Nat) :
    CpuCandidateHistory :=
  setSlot h i { h.slots i with free := false }

/- Poll, and wait for the slots where none is free. -/
def acquireSlot (poll : Poll) : HistoryM Nat :=
  acquire findFree takeSlot (pumpCompleted false poll)
    (pumpCompleted true poll)
    (.thrown
      (.runtimeError "candidate history slot acquisition failed"))

/- The batch is on its way to the host. -/
def fillSlot
    (h : CpuCandidateHistory)
    (i depthIndex : Nat)
    (batch : List CandidateMeta) : CpuCandidateHistory :=
  setSlot h i
    { h.slots i with
      host := batch
      depthIndex := depthIndex
      copyPending := true
      free := false }

/- The depth vectors grow by one. -/
def pushDepth
    (h : CpuCandidateHistory)
    (count : Nat) : CpuCandidateHistory :=
  { h with
    size := h.size + 1
    depthCounts := Function.update h.depthCounts h.size count
    ramDepths := Function.update h.ramDepths h.size []
    ramReady := Function.update h.ramReady h.size false
    pruneDirty := Function.update h.pruneDirty h.size false
    bytesReceived := h.bytesReceived + count * 32
    bytesStored := h.bytesStored + count * 16
    bytesStoredRam := h.bytesStoredRam + count * 16 }

/- The slot is filled before the depth is looked at. -/
def commitSlot
    (i depthIndex : Nat)
    (batch : List CandidateMeta) : HistoryM PUnit := do
  let h ← get
  if batch.length > h.slotCapacity then
    throw
      (.thrown
        (.runtimeError
          "candidate history count exceeds slot capacity"))
  else do
    set (fillSlot h i depthIndex batch)
    if depthIndex ≠ h.size then
      throw
        (.thrown
          (.runtimeError
            "candidate history commits must be depth-ordered"))
    else
      set (pushDepth (fillSlot h i depthIndex batch) batch.length)

/- At the end all copies, writers and jobs are waited for. -/
def finishAll : HistoryM PUnit := do
  pumpCompleted true waitAll
  pumpPruneJobs true waitAll

----------------
-- Runs
----------------

/- What the search does with the history. -/
inductive HistoryEvent where
  | pump (poll : Poll)
  | commit (poll : Poll) (batch : List CandidateMeta)
  | finish

/- One call of the caller. -/
def runEvent : HistoryEvent → HistoryM PUnit
  | .pump poll => pumpCompleted false poll
  | .commit poll batch => do
      let i ← acquireSlot poll
      let h ← get
      commitSlot i h.size batch
  | .finish => finishAll

/- The calls, one after the other. -/
def runEvents (events : List HistoryEvent) : HistoryM PUnit :=
  forEach events runEvent

/- The batch that a call commits, if any. -/
def HistoryEvent.batches :
    HistoryEvent → List (List CandidateMeta)
  | .commit _ batch => [batch]
  | _ => []

/- The committed batches, by depth. -/
def committedBatches
    (events : List HistoryEvent) : List (List CandidateMeta) :=
  events.flatMap HistoryEvent.batches

----------------
-- The Sequential Result
----------------

/- One pair of a list of layers pruned. -/
def prunePairAt
    (layers : List (List Entry))
    (d : Nat) : List (List Entry) :=
  match layers[d]?, layers[d + 1]? with
  | some previous, some current =>
      (layers.set d (prunePair previous current).1).set (d + 1)
        (prunePair previous current).2
  | _, _ => layers

/- All pairs, from the newest depth down to depth 0. -/
def pruneSequentially
    (layers : List (List Entry)) : List (List Entry) :=
  (List.range (layers.length - 1)).reverse.foldl prunePairAt
    layers

end Async

end History

end BeamSearch
