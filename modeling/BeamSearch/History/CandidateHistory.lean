import BeamSearch.History.AsyncPruner

/-
  The native history in the modes that do not prune.

  A committed layer waits in a slot for its copy and then for
  its writer. The writer's thread fills a vector, writes a file
  or one of the two arenas; when the disk arena fails, it takes
  the next free part of the memory arena. The bytes of a layer
  in an arena are counted when the host takes the result.

  Main declarations:
    * `CpuCandidateHistory`
    * `materializeDepth`
    * `pumpCompleted`
    * `commitSlot`, `finishAll`
    * `runEvents`
-/

namespace BeamSearch

open Hoare Word

namespace History

namespace Unpruned

----------------
-- State
----------------

/- `outOfRange` is what `at` throws. -/
inductive Failure where
  | thrown (exception : Exception)
  | outOfRange
deriving DecidableEq, Repr

/-
  How a call ends without returning: a failure, or a wait that
  never ends.
-/
inductive Stop where
  | failed (failure : Failure)
  | outOfFuel
deriving DecidableEq, Repr

/- Where a layer of the hybrid mode is. -/
structure DepthLocation where
  location : Location
  offset : Nat
deriving DecidableEq, Repr

/- Only a layer of the arenas has a place. -/
structure MaterializeResult where
  depthIndex : Nat
  place : Option DepthLocation
  ramData : List Entry
deriving DecidableEq, Repr

/- The thread of a slot, with what it returns or throws. -/
inductive Writer where
  | idle
  | running
  | done (result : Except Failure MaterializeResult)

/-
  A slot: the batch it holds, where that goes, and how far its
  copy and its writer are.
-/
structure Slot where
  host : List CandidateMeta
  depthIndex : Nat
  place : Option DepthLocation
  copyPending : Bool
  free : Bool
  writer : Writer

/- The history: its slots, its layers and its books. -/
structure CpuCandidateHistory where
  mode : HistoryMode
  slotCapacity : Nat
  slotCount : Nat
  slots : Nat → Slot
  depthCounts : List Nat
  depthLocations : List (Option DepthLocation)
  ramDepths : List (List Entry)
  ramReady : List Bool
  bytesReceived : Nat
  bytesStored : Nat
  bytesStoredRam : Nat
  bytesStoredDisk : Nat
  bytesPruned : Nat
  staticPlan : HistoryPlan
  ramArenaEntries : Nat
  ramEntriesUsed : Nat
  diskWriteFailed : Bool

/- The history is the state. -/
abbrev HistoryM : Type → Type :=
  EStateM Stop CpuCandidateHistory

/- A slot that was never used. -/
def freeSlot : Slot where
  host := []
  depthIndex := 0
  place := none
  copyPending := false
  free := true
  writer := .idle

/- The arguments of the constructor. -/
structure Settings where
  mode : HistoryMode
  capacity : UInt32
  slotCount : UInt32
  workerCount : UInt32
  depthLimit : UInt32
  moves : Nat
  ramBudgetBytes : UInt64
  diskBudgetBytes : UInt64

/- The plan of a mode without arenas. -/
def emptyPlan : HistoryPlan where
  depths := []
  requiredEntries := 0
  ramReservedEntries := 0
  diskReservedEntries := 0

/- All slots free; the arenas belong to the static mode. -/
def emptyHistory (s : Settings) : CpuCandidateHistory where
  mode := s.mode
  slotCapacity := s.capacity.toNat
  slotCount := s.slotCount.toNat
  slots _ := freeSlot
  depthCounts := []
  depthLocations := []
  ramDepths := []
  ramReady := []
  bytesReceived := 0
  bytesStored := 0
  bytesStoredRam := 0
  bytesStoredDisk := 0
  bytesPruned := 0
  staticPlan := emptyPlan
  ramArenaEntries := 0
  ramEntriesUsed := 0
  diskWriteFailed := false

/- The bytes of all slots at `bytes` for every entry. -/
def slotBytes
    (slots entries bytes : Nat)
    (what : String) : Checked Exception Nat :=
  if slots > uint64Max / entries ∨
      slots * entries > uint64Max / bytes then
    throwing (.overflowError what)
  else
    pure (slots * entries * bytes)

/- The hybrid mode divides its budgets among the arenas. -/
def withArenas
    (s : Settings)
    (pinned staging : Nat) :
    Checked Exception CpuCandidateHistory := do
  let ramBudget := s.ramBudgetBytes.toNat
  if ramBudget ≤ pinned ∨ ramBudget - pinned ≤ staging then
    throwing
      (.runtimeError
        ("static hybrid history RAM budget cannot fit pinned " ++
          "slots and staging: ram_budget=" ++
          toString ramBudget ++ " pinned_slots=" ++
          toString pinned ++ " staging=" ++ toString staging))
  else do
    let budget ←
      estimateHistoryBudget s.depthLimit.toNat
        s.capacity.toNat s.moves
    if budget.requiredEntries > uint64Max / 16 then
      throwing
        (.overflowError
          "static hybrid history required bytes overflow")
    else do
      let ramEntries := (ramBudget - pinned - staging) / 16
      let diskEntries := s.diskBudgetBytes.toNat / 16
      let layout ←
        planHistory s.depthLimit.toNat s.capacity.toNat s.moves
          ramEntries diskEntries
      pure
        { emptyHistory s with
          staticPlan := layout
          ramArenaEntries := ramEntries
          ramEntriesUsed := layout.ramReservedEntries }

/- The history at its start, or what the constructor throws. -/
def initializeHistory (s : Settings) :
    Checked Exception CpuCandidateHistory :=
  if s.capacity = 0 ∨ s.slotCount = 0 ∨ s.workerCount = 0 then
    throwing
      (.runtimeError
        ("candidate history capacity, slot count, and worker " ++
          "count must be nonzero"))
  else do
    let pinned ←
      slotBytes s.slotCount.toNat s.capacity.toNat 32
        "candidate history pinned slot bytes overflow"
    let staging ←
      slotBytes s.slotCount.toNat
        (min s.capacity.toNat (2 ^ 20)) 16
        "candidate history staging bytes overflow"
    if s.mode = .staticHybrid then
      withArenas s pinned staging
    else
      pure (emptyHistory s)

----------------
-- Places In The Arenas
----------------

/- The offset, and the new end of the reserved part. -/
def reserveHistoryFallbackRam
    (count capacity reservedEnd : Nat) :
    Except Failure (Nat × Nat) :=
  if reservedEnd > capacity ∨ count > capacity - reservedEnd then
    .error
      (.thrown
        (.runtimeError
          "static hybrid history RAM fallback exhausted"))
  else
    .ok (reservedEnd, reservedEnd + count)

/- The reservation of a layer, checked against its bound. -/
def planReservation
    (layout : HistoryPlan)
    (depth actualCount : Nat) :
    Except Failure Reservation :=
  match layout.depths[depth]? with
  | none => .error .outOfRange
  | some r =>
      if actualCount > r.bound then
        .error
          (.thrown
            (.runtimeError
              ("candidate history count exceeds planned depth " ++
                "bound")))
      else
        .ok r

/-
  The place of a layer. After a failed disk write the layers
  that were planned on disk go to the fallback.
-/
def reserveStaticLocation
    (h : CpuCandidateHistory)
    (depthIndex count : Nat) :
    Except Failure (DepthLocation × CpuCandidateHistory) := do
  let reservation ←
    planReservation h.staticPlan depthIndex count
  if reservation.location = .disk ∧ h.diskWriteFailed then do
    let (offset, last) ←
      reserveHistoryFallbackRam count h.ramArenaEntries
        h.ramEntriesUsed
    pure (⟨.ram, offset⟩, { h with ramEntriesUsed := last })
  else
    pure (⟨reservation.location, reservation.offset⟩, h)

/- From now on the disk counts as failed. -/
def reserveStaticRamFallback
    (h : CpuCandidateHistory)
    (count : Nat)
    (diskError : String) :
    Except Failure DepthLocation × CpuCandidateHistory :=
  let failed := { h with diskWriteFailed := true }
  match reserveHistoryFallbackRam count h.ramArenaEntries
      h.ramEntriesUsed with
  | .ok (offset, last) =>
      (.ok ⟨.ram, offset⟩, { failed with ramEntriesUsed := last })
  | .error _ =>
      (.error
          (.thrown
            (.runtimeError
              ("static hybrid history disk write failed and RAM " ++
                "fallback is exhausted: disk_error=" ++
                diskError ++ " count=" ++ toString count ++
                " ram_used=" ++ toString (h.ramEntriesUsed * 16) ++
                " ram_capacity=" ++
                toString (h.ramArenaEntries * 16)))),
        failed)

/- The end of the write is checked again. -/
def writeStaticRam
    (h : CpuCandidateHistory)
    (offset count : Nat) : Except Failure Unit :=
  if h.ramArenaEntries = 0 ∨
      offset + count > h.ramArenaEntries then
    .error
      (.thrown
        (.runtimeError
          "static history RAM arena write exceeds capacity"))
  else
    .ok ()

----------------
-- Writers
----------------

/- A layer of the arenas; `diskError` is what the disk throws. -/
def materializeStatic
    (h : CpuCandidateHistory)
    (slot : Slot)
    (diskError : Option String) :
    Except Failure DepthLocation × CpuCandidateHistory :=
  let count := slot.host.length
  match slot.place with
  | some ⟨.disk, offset⟩ =>
      match diskError with
      | none => (.ok ⟨.disk, offset⟩, h)
      | some text =>
          let fallback := reserveStaticRamFallback h count text
          (fallback.1.bind fun place =>
              (writeStaticRam fallback.2 place.offset count).map
                fun _ => place,
            fallback.2)
  | some ⟨.ram, offset⟩ =>
      ((writeStaticRam h offset count).map
          fun _ => ⟨.ram, offset⟩,
        h)
  | none =>
      (.error
          (.thrown
            (.runtimeError
              ("static hybrid history materialize missing storage " ++
                "location"))),
        h)

/-
  What the writer of a slot does in each mode; only the disk
  may fail.
-/
def materializeDepth
    (h : CpuCandidateHistory)
    (slot : Slot)
    (diskError : Option String) :
    Except Failure MaterializeResult × CpuCandidateHistory :=
  match h.mode with
  | .ram =>
      (.ok
          { depthIndex := slot.depthIndex
            place := slot.place
            ramData := slot.host.map entry },
        h)
  | .disk =>
      match diskError with
      | none =>
          (.ok
              { depthIndex := slot.depthIndex
                place := slot.place
                ramData := [] },
            h)
      | some text => (.error (.thrown (.runtimeError text)), h)
  | .staticHybrid =>
      let stored := materializeStatic h slot diskError
      (stored.1.map fun place =>
          { depthIndex := slot.depthIndex
            place := some place
            ramData := [] },
        stored.2)

/- Only this slot changes. -/
def setSlot
    (h : CpuCandidateHistory)
    (i : Nat)
    (slot : Slot) : CpuCandidateHistory :=
  { h with slots := Function.update h.slots i slot }

/- A thread that runs comes to its end. -/
def runWriter
    (i : Nat)
    (diskError : Option String) : HistoryM PUnit := do
  let h ← get
  match (h.slots i).writer with
  | .running => do
      let written := materializeDepth h (h.slots i) diskError
      set
        (setSlot written.2 i
          { h.slots i with writer := .done written.1 })
  | _ => pure ⟨⟩

/- Writers go on while the host does something else. -/
def runWriters
    (work : List (Nat × Option String)) : HistoryM PUnit :=
  forEach work fun job => runWriter job.1 job.2

----------------
-- Slots
----------------

/-
  What happens while the host polls: the copies that are done,
  the threads that end before it looks at a slot, and how the
  write ends that it has to wait for.
-/
structure Poll where
  copyDone : Nat → Bool
  work : Nat → List (Nat × Option String)
  last : Nat → Option String

/-
  A copy that is done lets its writer run; one that is waited
  for is done.
-/
def pollCopy
    (waiting : Bool)
    (poll : Poll)
    (i : Nat) : HistoryM Bool := do
  let h ← get
  if (h.slots i).copyPending && (waiting || poll.copyDone i) then do
    set
      (setSlot h i
        { h.slots i with copyPending := false, writer := .running })
    pure true
  else
    pure false

/- The bytes of an arena layer go to the tier it landed in. -/
def creditPlace
    (h : CpuCandidateHistory)
    (place : Option DepthLocation)
    (storedBytes : Nat) : CpuCandidateHistory :=
  match place with
  | some ⟨.disk, _⟩ =>
      { h with bytesStoredDisk := h.bytesStoredDisk + storedBytes }
  | some ⟨.ram, _⟩ =>
      { h with bytesStoredRam := h.bytesStoredRam + storedBytes }
  | none => h

/- The layer is entered into the books of its mode. -/
def publishDepth
    (h : CpuCandidateHistory)
    (slot : Slot)
    (result : MaterializeResult) :
    Except Failure CpuCandidateHistory :=
  match h.mode with
  | .ram =>
      if slot.depthIndex ≥ h.ramDepths.length then
        .error
          (.thrown
            (.runtimeError
              "candidate history RAM depth index missing"))
      else
        .ok
          { h with
            ramDepths :=
              h.ramDepths.set slot.depthIndex result.ramData
            ramReady := h.ramReady.set slot.depthIndex true }
  | .disk => .ok h
  | .staticHybrid =>
      if slot.depthIndex ≥ h.ramReady.length then
        .error
          (.thrown
            (.runtimeError "static history depth index missing"))
      else if result.depthIndex ≥ h.depthLocations.length then
        .error
          (.thrown
            (.runtimeError
              "static history result depth index missing"))
      else
        .ok
          (creditPlace
            { h with
              depthLocations :=
                h.depthLocations.set result.depthIndex result.place
              ramReady := h.ramReady.set slot.depthIndex true }
            result.place (slot.host.length * 16))

/- A result, or a stop. -/
def orStop
    {α : Type}
    (result : Except Failure α) : HistoryM α :=
  match result with
  | .ok a => pure a
  | .error failure => throw (.failed failure)

/- The result is taken; the slot is free again. -/
def takeResult (i : Nat) : HistoryM Bool := do
  let h ← get
  match (h.slots i).writer with
  | .done result => do
      let materialized ← orStop result
      let published ←
        orStop (publishDepth h (h.slots i) materialized)
      set
        (setSlot published i
          { h.slots i with writer := .idle, free := true })
      pure true
  | _ => pure false

/-
  A writer is polled after the others went on. A wait runs it
  to its end.
-/
def pollWriter
    (waiting : Bool)
    (poll : Poll)
    (i : Nat) : HistoryM Bool := do
  runWriters (poll.work i)
  let h ← get
  if (h.slots i).copyPending || (h.slots i).free then
    pure false
  else if waiting then do
    runWriter i (poll.last i)
    takeResult i
  else
    takeResult i

/- First the copy of the slot, then its writer. -/
def pollSlot
    (waiting : Bool)
    (poll : Poll)
    (i : Nat) : HistoryM Bool := do
  let copied ← pollCopy waiting poll i
  let written ← pollWriter waiting poll i
  pure (copied || written)

/- Every slot is polled. -/
def pollSlots
    (waiting : Bool)
    (poll : Poll) : HistoryM Bool := do
  let h ← get
  anyOf (List.range h.slotCount) (pollSlot waiting poll)

/- Waiting drains every slot in the first pass. -/
def pumpCompleted
    (waiting : Bool)
    (poll : Poll) : HistoryM PUnit :=
  if waiting then
    repeatUntil Stop.outOfFuel 2 do
      let progressed ← pollSlots true poll
      pure !progressed
  else do
    let _ ← pollSlots false poll
    pure ⟨⟩

/- The first free slot. -/
def findFree (h : CpuCandidateHistory) : Option Nat :=
  firstFree Slot.free h.slotCount h.slots

/- The slot is taken. -/
def takeSlot (h : CpuCandidateHistory) (i : Nat) :
    CpuCandidateHistory :=
  setSlot h i { h.slots i with free := false }

/- The second poll is the one that waits. -/
def acquireSlot (poll again : Poll) : HistoryM Nat :=
  acquire findFree takeSlot (pumpCompleted false poll)
    (pumpCompleted true again)
    (.failed
      (.thrown
        (.runtimeError
          "candidate history slot acquisition failed")))

----------------
-- Commits
----------------

/- The batch is on its way to the host, without a place yet. -/
def fillSlot
    (h : CpuCandidateHistory)
    (i depthIndex : Nat)
    (batch : List CandidateMeta) : CpuCandidateHistory :=
  setSlot h i
    { h.slots i with
      host := batch
      depthIndex := depthIndex
      place := none
      copyPending := true
      free := false }

/- In the static mode the slot gets its place. -/
def placeSlot
    (h : CpuCandidateHistory)
    (i depthIndex count : Nat) :
    Except Failure CpuCandidateHistory :=
  match h.mode with
  | .staticHybrid => do
      let (place, reserved) ←
        reserveStaticLocation h depthIndex count
      pure
        { setSlot reserved i
            { h.slots i with place := some place } with
          depthLocations := h.depthLocations ++ [some place]
          ramReady := h.ramReady ++ [false] }
  | .ram =>
      pure
        { h with
          ramDepths := h.ramDepths ++ [[]]
          ramReady := h.ramReady ++ [false] }
  | .disk => pure h

/- Outside the arenas the tier is known at the commit. -/
def countBytes
    (h : CpuCandidateHistory)
    (count : Nat) : CpuCandidateHistory :=
  let counted :=
    { h with
      depthCounts := h.depthCounts ++ [count]
      bytesReceived := h.bytesReceived + count * 32
      bytesStored := h.bytesStored + count * 16 }
  match h.mode with
  | .ram =>
      { counted with
        bytesStoredRam := h.bytesStoredRam + count * 16 }
  | .disk =>
      { counted with
        bytesStoredDisk := h.bytesStoredDisk + count * 16 }
  | .staticHybrid => counted

/- A batch that a slot cannot hold is refused. -/
def commitSlot
    (i depthIndex : Nat)
    (batch : List CandidateMeta) : HistoryM PUnit := do
  let h ← get
  if batch.length > h.slotCapacity then
    throw
      (.failed
        (.thrown
          (.runtimeError
            "candidate history count exceeds slot capacity")))
  else do
    set (fillSlot h i depthIndex batch)
    if depthIndex ≠ h.depthCounts.length then
      throw
        (.failed
          (.thrown
            (.runtimeError
              "candidate history commits must be depth-ordered")))
    else do
      let placed ←
        orStop
          (placeSlot (fillSlot h i depthIndex batch) i depthIndex
            batch.length)
      set (countBytes placed batch.length)

/- At the end all is waited for. -/
def finishAll (poll : Poll) : HistoryM PUnit :=
  pumpCompleted true poll

----------------
-- Runs
----------------

/- `work` ends between the acquisition and the commit. -/
inductive HistoryEvent where
  | pump (poll : Poll)
  | commit
      (poll again : Poll)
      (work : List (Nat × Option String))
      (batch : List CandidateMeta)
  | finish (poll : Poll)

/- One call of the caller. -/
def runEvent : HistoryEvent → HistoryM PUnit
  | .pump poll => pumpCompleted false poll
  | .commit poll again work batch => do
      let i ← acquireSlot poll again
      runWriters work
      let h ← get
      commitSlot i h.depthCounts.length batch
  | .finish poll => finishAll poll

/- The calls, one after the other. -/
def runEvents (events : List HistoryEvent) : HistoryM PUnit :=
  forEach events runEvent

/- The batch that a call commits, if any. -/
def HistoryEvent.batches :
    HistoryEvent → List (List CandidateMeta)
  | .commit _ _ _ batch => [batch]
  | _ => []

/- The committed batches, by depth. -/
def committedBatches
    (events : List HistoryEvent) : List (List CandidateMeta) :=
  events.flatMap HistoryEvent.batches

end Unpruned

end History

end BeamSearch
