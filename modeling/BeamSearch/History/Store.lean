import BeamSearch.Core.Types
import BeamSearch.History.Planner
import BeamSearch.Lib.ByteFile
import BeamSearch.Lib.Exchange
import BeamSearch.Lib.Hoare

/-
  The history store of the runtime crate.

  A layer lives in memory, in a file of its own, or at an offset
  of one of the two arenas. The arenas are planned before the
  search; when the disk fails, its layers go behind the planned
  part of the memory arena.

  Main declarations:
    * `HistoryStore`
    * `HistoryStore.new`
    * `write`, `read`
    * `runWrites`
-/

namespace BeamSearch

open ByteFile Hoare

namespace History

----------------
-- Errors
----------------

/- The text that the contract is displayed as. -/
def ContractError.display : ContractError → String
  | .invalid name => "invalid " ++ name
  | .overflow name => name ++ " size overflow"
  | .capacity name required available =>
      name ++ " capacity exceeded: required=" ++
        toString required ++ " available=" ++ toString available

/- `abort` ends the process: an unwrap, an index, a wrap. -/
inductive StoreError where
  | contract (error : ContractError)
  | message (text : String)
  | io (text : String)
  | abort
deriving DecidableEq, Repr

/- The text of an error; an abort ends the process. -/
def StoreError.display : StoreError → String
  | .contract error => ContractError.display error
  | .message text => text
  | .io text => text
  | .abort => "abort"

/- What the planner returns; a wrapped word is a panic. -/
def fromPlanner
    {α : Type}
    (result : Word.Checked ContractError α) :
    Except StoreError α :=
  match result with
  | .ok a => .ok a
  | .error (.thrown error) => .error (.contract error)
  | .error _ => .error .abort

/- A broken contract is an error of the store. -/
def liftContract
    {α : Type}
    (result : Except ContractError α) :
    Except StoreError α :=
  match result with
  | .ok a => .ok a
  | .error error => .error (.contract error)

----------------
-- Entries
----------------

/- What is kept of a row. -/
structure Entry where
  parentIdx : Nat
  route : UInt32
  pad : UInt32
deriving DecidableEq, Repr

/- The entry that a RAM arena is filled with. -/
def defaultEntry : Entry :=
  ⟨0, 0, 0⟩

/- The entry of a row. -/
def entry (candidate : CandidateMeta) : Entry where
  parentIdx := candidate.parentIdx.toNat
  route := candidate.routePacked
  pad := 0

/- Its sixteen bytes, the low byte first. -/
def encode (e : Entry) : List UInt8 :=
  leBytes 8 e.parentIdx ++ leBytes 4 e.route.toNat ++
    List.replicate 4 0

/- The entry of sixteen bytes. -/
def decode (bytes : List UInt8) : Entry where
  parentIdx := ofLeBytes (bytes.take 8)
  route := UInt32.ofNat (ofLeBytes ((bytes.drop 8).take 4))
  pad := 0

@[simp] theorem length_encode (e : Entry) :
    (encode e).length = 16 := by
  simp [encode]

theorem decode_encode_entry (candidate : CandidateMeta) :
    decode (encode (entry candidate)) = entry candidate := by
  have hParent :
      ofLeBytes (leBytes 8 candidate.parentIdx.toNat) =
        candidate.parentIdx.toNat :=
    ofLeBytes_leBytes 8 candidate.parentIdx.toNat_lt
  have hRoute :
      ofLeBytes (leBytes 4 candidate.routePacked.toNat) =
        candidate.routePacked.toNat :=
    ofLeBytes_leBytes 4 candidate.routePacked.toNat_lt
  simp [decode, encode, entry, hParent, hRoute,
    List.take_append, List.drop_append]

----------------
-- The Store
----------------

/- Where layers are stored. -/
inductive HistoryMode where
  | ram
  | disk
  | staticHybrid
deriving DecidableEq, Repr

/- The arguments of the constructor. -/
structure HistoryConfig where
  mode : HistoryMode
  capacity : UInt32
  slots : UInt32
  workers : UInt32
  maxDepth : UInt32
  moves : UInt32
  ramBudgetBytes : UInt64
  diskBudgetBytes : UInt64
  prune : Bool
deriving DecidableEq, Repr

/- The file of a layer is named by its depth. -/
inductive Storage where
  | ram (data : List Entry)
  | disk (depth : Nat)
  | arenaRam (offset : Nat)
  | arenaDisk (offset : Nat)
deriving DecidableEq, Repr

/- A stored layer: its length and where it is. -/
structure Depth where
  count : Nat
  storage : Storage
deriving DecidableEq, Repr

/- The counters that the store reports. -/
structure Stats where
  bytesReceived : Nat
  bytesStored : Nat
  bytesStoredRam : Nat
  bytesStoredDisk : Nat
  bytesPruned : Nat
  bytesPinnedSlots : Nat
  bytesSlotStaging : Nat
  bytesStaticRamArena : Nat
  bytesStaticDiskArena : Nat
  requiredEntries : Nat
  ramReserved : Nat
  diskReserved : Nat
  statesBeforeTargetBeam : Nat
  effectiveDepth : Nat
  targetBeamDepth : Nat
deriving DecidableEq, Repr

/- The store: its plan, its layers, its arenas and its files. -/
structure HistoryStore where
  config : HistoryConfig
  stats : Stats
  plan : Option Plan
  depths : List (Option Depth)
  ram : Nat → Entry
  ramLen : Nat
  disk : Option File
  files : Nat → File
  diskFailed : Bool
  stagingBytes : Nat

/- A product of bytes, checked. -/
def mul (a b : Nat) : Except StoreError Nat :=
  match checkedMul a b with
  | some product => .ok product
  | none => .error (.contract (.overflow "history bytes"))

/- The statistics of a store without arenas. -/
def initialStats (pinned staging : Nat) : Stats where
  bytesReceived := 0
  bytesStored := 0
  bytesStoredRam := 0
  bytesStoredDisk := 0
  bytesPruned := 0
  bytesPinnedSlots := pinned
  bytesSlotStaging := staging
  bytesStaticRamArena := 0
  bytesStaticDiskArena := 0
  requiredEntries := 0
  ramReserved := 0
  diskReserved := 0
  statesBeforeTargetBeam := 0
  effectiveDepth := 0
  targetBeamDepth := 0

/- The store before its arenas are made. -/
def emptyStore
    (config : HistoryConfig)
    (pinned staging : Nat) : HistoryStore where
  config := config
  stats := initialStats pinned staging
  plan := none
  depths := List.replicate config.maxDepth.toNat none
  ram _ := defaultEntry
  ramLen := 0
  disk := none
  files _ := emptyFile
  diskFailed := false
  stagingBytes := staging

/- The RAM that is not for layers. -/
def ramOverhead
    (pinned staging : Nat) : Except StoreError Nat :=
  match (checkedAdd pinned staging).bind
      fun v => checkedAdd v 1 with
  | some overhead => .ok overhead
  | none => .error (.contract (.overflow "history RAM overhead"))

/- The arenas: planned, allocated and reserved. -/
def withArenas
    (store : HistoryStore)
    (pinned staging : Nat) :
    Except StoreError HistoryStore := do
  let config := store.config
  let ramBudget := config.ramBudgetBytes.toNat
  let overhead ← ramOverhead pinned staging
  liftContract
    (requireCapacity "history pinned/staging RAM" overhead
      ramBudget)
  let ramEntries := (ramBudget - pinned - staging) / 16
  let diskEntries := config.diskBudgetBytes.toNat / 16
  let layout ←
    fromPlanner
      (plan config.maxDepth.toNat config.capacity.toNat
        config.moves.toNat ramEntries diskEntries)
  let estimated ←
    fromPlanner
      (estimate config.maxDepth.toNat config.capacity.toNat
        config.moves.toNat)
  let _ ← mul estimated.requiredEntries 16
  let ramArena ← mul ramEntries 16
  let diskArena ← mul diskEntries 16
  pure
    { store with
      stats :=
        { store.stats with
          bytesStaticRamArena := ramArena
          bytesStaticDiskArena := diskArena
          requiredEntries := estimated.requiredEntries
          ramReserved := layout.ramReserved
          diskReserved := layout.diskReserved
          statesBeforeTargetBeam :=
            estimated.statesBeforeTargetBeam
          effectiveDepth := config.maxDepth.toNat
          targetBeamDepth := estimated.targetBeamDepth }
      plan := some layout
      ramLen := ramEntries
      disk :=
        if diskEntries > 0 then some (reservedFile diskArena)
        else none }

/- The store at its start, or why there is none. -/
def HistoryStore.new
    (config : HistoryConfig) :
    Except StoreError HistoryStore :=
  if config.capacity = 0 ∨ config.slots = 0 ∨
      config.workers = 0 ∨ config.moves = 0 then
    .error
      (.message
        "history capacity/slots/workers/moves must be nonzero")
  else do
    let pinnedSlots ←
      mul config.capacity.toNat config.slots.toNat
    let pinned ← mul pinnedSlots 32
    let chunk := min config.capacity.toNat (2 ^ 20)
    let stagingSlots ← mul chunk config.slots.toNat
    let staging ← mul stagingSlots 16
    let store := emptyStore config pinned staging
    if config.mode = .staticHybrid then
      withArenas store pinned staging
    else
      return store

----------------
-- Writing
----------------

/-
  The store is the state, so a failed call says what it left.
-/
abbrev StoreM : Type → Type :=
  EStateM StoreError HistoryStore

/- A result, or an error. -/
def orThrow
    {α : Type}
    (result : Except StoreError α) : StoreM α :=
  match result with
  | .ok a => pure a
  | .error error => throw error

/-
  How the system calls of one file write end. A failed write
  leaves any bytes in its range.
-/
inductive IoOutcome where
  | completed
  | failed (text : String) (residue : Nat → UInt8)

/- The staging buffer's worth of candidates, one part each. -/
def chunks
    (size : Nat)
    (batch : List CandidateMeta) :
    List (List CandidateMeta) :=
  (List.range ((batch.length + size - 1) / size)).map
    fun k => (batch.drop (k * size)).take size

/- The parts are written one behind the other. -/
def writeParts
    (file : File)
    (position : Nat) :
    List (List CandidateMeta) → File
  | [] => file
  | part :: parts =>
      let data := part.flatMap fun c => encode (entry c)
      writeParts (writeAll file position data)
        (position + data.length) parts

/-
  A batch goes to the file in parts of the staging buffer; the
  outcome says how far it got.
-/
def writeFile
    (stagingBytes : Nat)
    (file : File)
    (offset : Nat)
    (batch : List CandidateMeta)
    (io : IoOutcome) :
    Except StoreError Unit × File :=
  match mul offset 16 with
  | .error error => (.error error, file)
  | .ok position =>
      match io with
      | .completed =>
          (.ok (),
            writeParts file position
              (chunks (stagingBytes / 16) batch))
      | .failed text residue =>
          (.error (.io text),
            writeAll file position
              ((List.range (batch.length * 16)).map residue))

/- A write to the arena, with its end checked. -/
def writeRam
    (offset : Nat)
    (batch : List CandidateMeta) : StoreM PUnit := do
  let store ← get
  match checkedAdd offset batch.length with
  | none =>
      throw (.contract (.overflow "history RAM end"))
  | some last => do
      orThrow
        (liftContract
          (requireCapacity "history RAM entries" last
            store.ramLen))
      modify fun s =>
        { s with ram := overwrite s.ram offset (batch.map entry) }

/- Behind the planned layers and the earlier fallbacks. -/
def storeFallback
    (plan : Plan)
    (batch : List CandidateMeta)
    (diskError : StoreError) : StoreM Storage := do
  modify fun s => { s with diskFailed := true }
  match plan.reserveFallback batch.length with
  | .error error =>
      throw
        (.message
          (diskError.display ++ "; " ++
            ContractError.display error))
  | .ok (offset, reserved) => do
      modify fun s => { s with plan := some reserved }
      writeRam offset batch
      return .arenaRam offset

/-
  The reserved place of a layer; a refused disk write goes to
  the fallback.
-/
def storeStaticHybrid
    (depth : Nat)
    (batch : List CandidateMeta)
    (io : IoOutcome) : StoreM Storage := do
  let store ← get
  match store.plan with
  | none => throw .abort
  | some plan => do
      let reservation ←
        orThrow (liftContract (plan.reservation depth batch.length))
      match reservation.location with
      | .ram => do
          writeRam reservation.offset batch
          return .arenaRam reservation.offset
      | .disk =>
          if store.diskFailed then
            storeFallback plan batch
              (.message "history disk disabled")
          else
            match store.disk with
            | none =>
                throw (.message "history disk arena missing")
            | some file => do
                let written :=
                  writeFile store.stagingBytes file
                    reservation.offset batch io
                modify fun s => { s with disk := some written.2 }
                match written.1 with
                | .ok () => return .arenaDisk reservation.offset
                | .error error =>
                    storeFallback plan batch error

/- A file for each layer. -/
def storeDisk
    (depth : Nat)
    (batch : List CandidateMeta)
    (io : IoOutcome) : StoreM Storage := do
  let store ← get
  let written :=
    writeFile store.stagingBytes emptyFile 0 batch io
  modify fun s =>
    { s with files := Function.update s.files depth written.2 }
  orThrow written.1
  return .disk depth

/- Each mode stores its batch. -/
def storeBatch
    (mode : HistoryMode)
    (depth : Nat)
    (batch : List CandidateMeta)
    (io : IoOutcome) : StoreM Storage :=
  match mode with
  | .ram => return .ram (batch.map entry)
  | .disk => storeDisk depth batch io
  | .staticHybrid => storeStaticHybrid depth batch io

/- A counter that may overflow. -/
def addBytes
    (total bytes : Nat)
    (name : String) :
    Except StoreError Nat :=
  match checkedAdd total bytes with
  | some sum => .ok sum
  | none => .error (.contract (.overflow name))

/- Whether a layer counts as RAM. -/
def Storage.inRam : Storage → Bool
  | .ram _ => true
  | .arenaRam _ => true
  | .disk _ => false
  | .arenaDisk _ => false

/-
  The layer is entered last, after all counters were computed.
-/
def record
    (depth count : Nat)
    (storage : Storage) : StoreM PUnit := do
  let stored ← orThrow (mul count 16)
  let store ← get
  let candidates ← orThrow (mul count 32)
  let received ←
    orThrow
      (addBytes store.stats.bytesReceived candidates
        "history received bytes")
  modify fun s =>
    { s with stats := { s.stats with bytesReceived := received } }
  let total ←
    orThrow
      (addBytes store.stats.bytesStored stored
        "history stored bytes")
  modify fun s =>
    { s with
      stats :=
        if storage.inRam then
          { s.stats with
            bytesStored := total
            bytesStoredRam := s.stats.bytesStoredRam + stored }
        else
          { s.stats with
            bytesStored := total
            bytesStoredDisk := s.stats.bytesStoredDisk + stored }
      depths := s.depths.set depth (some ⟨count, storage⟩) }

----------------
-- Pruning
----------------

/- Mark every entry that the layer above names. -/
def markParents
    {ε : Type}
    (outOfRange : ε) :
    List Entry →
    List (Option Nat) →
    Except ε (List (Option Nat))
  | [], remap => .ok remap
  | item :: items, remap =>
      if item.parentIdx < remap.length then
        markParents outOfRange items
          (remap.set item.parentIdx (some 0))
      else
        .error outOfRange

/- The state of the compaction. -/
structure CompactState where
  remap : List (Option Nat)
  entries : List Entry
  kept : Nat

/- A marked entry moves down to the next free place. -/
def compactStep (s : CompactState) (old : Nat) : CompactState :=
  match s.remap[old]?, s.entries[old]? with
  | some (some _), some moved =>
      { remap := s.remap.set old (some s.kept)
        entries := s.entries.set s.kept moved
        kept := s.kept + 1 }
  | _, _ => s

/- The parent's new index, where the parent was kept. -/
def remapParent (remap : List (Option Nat)) (item : Entry) : Entry :=
  match remap[item.parentIdx]? with
  | some (some kept) => { item with parentIdx := kept }
  | _ => item

/- The lower layer compacted, the upper one renumbered. -/
def pruneLayers
    (previous current : List Entry) :
    Except StoreError (List Entry × List Entry) := do
  let marked ←
    markParents
      (.message "history prune parent out of range") current
      (List.replicate previous.length none)
  let compacted :=
    (List.range previous.length).foldl compactStep
      { remap := marked, entries := previous, kept := 0 }
  pure
    (compacted.entries.take compacted.kept,
      current.map (remapParent compacted.remap))

/- The count and the entries of a layer in memory. -/
def ramLayer
    (store : HistoryStore)
    (depth : Nat) : Option (Nat × List Entry) :=
  match store.depths[depth]? with
  | some (some ⟨count, .ram data⟩) => some (count, data)
  | _ => none

/- One pair of adjacent layers. -/
def pruneAt (index : Nat) : StoreM PUnit := do
  let store ← get
  match ramLayer store (index - 1), ramLayer store index with
  | some (_, previous), some (count, current) => do
      let (previous', current') ←
        orThrow (pruneLayers previous current)
      let removed := (previous.length - previous'.length) * 16
      modify fun s =>
        { s with
          depths :=
            (s.depths.set (index - 1)
                (some ⟨previous'.length, .ram previous'⟩)).set
              index (some ⟨count, .ram current'⟩)
          stats :=
            { s.stats with
              bytesStored := s.stats.bytesStored - removed
              bytesStoredRam := s.stats.bytesStoredRam - removed
              bytesPruned := s.stats.bytesPruned + removed } }
  | _, _ => pure ⟨⟩

/- The pairs of neighbours from `index` down. -/
def pruneFrom : (index : Nat) → StoreM PUnit
  | 0 => pure ⟨⟩
  | index + 1 => do
      pruneAt (index + 1)
      pruneFrom index

/- From the newest layer down. -/
def prune : StoreM PUnit := do
  let store ← get
  pruneFrom (store.depths.length - 1)

----------------
-- Calls
----------------

/- A write: refused, or stored, recorded and pruned. -/
def write
    (depth : Nat)
    (batch : List CandidateMeta)
    (io : IoOutcome) : StoreM PUnit := do
  let store ← get
  match store.depths[depth]? with
  | none => throw (.message "history depth out of range")
  | some (some _) => throw (.message "duplicate history depth")
  | some none => do
      orThrow
        (liftContract
          (requireCapacity "history batch" batch.length
            store.config.capacity.toNat))
      let storage ←
        storeBatch store.config.mode depth batch io
      record depth batch.length storage
      if store.config.mode = .ram ∧ store.config.prune then
        prune
      else
        pure ⟨⟩

/- Sixteen bytes at the index. -/
def readFile
    (file : File)
    (index : Nat) : Except StoreError Entry := do
  let position ← mul index 16
  match readExact file position 16 with
  | none => .error (.io "failed to fill whole buffer")
  | some bytes => return decode bytes

/- The layer of a depth that was stored. -/
def count
    (store : HistoryStore)
    (depth : Nat) : Except StoreError Depth :=
  match store.depths[depth]? with
  | some (some record) => .ok record
  | _ => .error (.message "history depth not materialized")

/- An entry, from where the layer is. -/
def readStorage
    (store : HistoryStore)
    (storage : Storage)
    (index : Nat) : Except StoreError Entry :=
  match storage with
  | .ram data =>
      match data[index]? with
      | some e => .ok e
      | none => .error .abort
  | .arenaRam offset =>
      if offset + index < store.ramLen then
        .ok (store.ram (offset + index))
      else
        .error .abort
  | .disk path => readFile (store.files path) index
  | .arenaDisk offset =>
      match store.disk with
      | none => .error (.message "history disk missing")
      | some file => readFile file (offset + index)

/- A read is checked against the length of its layer. -/
def read
    (store : HistoryStore)
    (depth index : Nat) : Except StoreError Entry := do
  let record ← count store depth
  if index ≥ record.count then
    .error
      (.message
        ("history index out of range: index=" ++
          toString index ++ " count=" ++ toString record.count))
  else
    readStorage store record.storage index

/- One call of the caller, with what the disk did. -/
structure WriteCall where
  depth : Nat
  batch : List CandidateMeta
  io : IoOutcome

/- The writes in order, with the calls that returned `Ok`. -/
def runWrites :
    List WriteCall →
    HistoryStore →
    List WriteCall × HistoryStore
  | [], store => ([], store)
  | call :: calls, store =>
      match write call.depth call.batch call.io store with
      | .ok _ store' =>
          let rest := runWrites calls store'
          (call :: rest.1, rest.2)
      | .error _ store' => runWrites calls store'

----------------
-- Steps Of Every Mode
----------------

theorem orThrow_spec
    {α : Type}
    (s₀ : HistoryStore)
    (result : Except StoreError α) :
    Triple (fun s => s = s₀) (orThrow result)
      (fun a s => result = .ok a ∧ s = s₀)
      (fun _ s => s = s₀) := by
  cases result with
  | ok a => exact Triple.value fun s hs => ⟨rfl, hs⟩
  | error error => exact Triple.stop fun s hs => hs

theorem record_spec
    (s₀ : HistoryStore)
    (depth count : Nat)
    (storage : Storage) :
    Triple (fun s => s = s₀) (record depth count storage)
      (fun _ s =>
        ∃ stats,
          s =
            { s₀ with
              stats := stats
              depths :=
                s₀.depths.set depth (some ⟨count, storage⟩) })
      (fun _ s => ∃ stats, s = { s₀ with stats := stats }) := by
  have hSame : ∀ (_ : StoreError) (t : HistoryStore),
      t = s₀ → ∃ stats, t = { s₀ with stats := stats } :=
    fun _ _ ht => ⟨s₀.stats, ht⟩
  apply Triple.seq ((orThrow_spec s₀ _).stop_mono hSame)
  intro stored
  apply Triple.pre _ (fun _ ht => ht.2)
  apply Triple.read
  rintro s rfl
  apply Triple.seq ((orThrow_spec s _).stop_mono hSame)
  intro candidates
  apply Triple.pre _ (fun _ ht => ht.2)
  apply Triple.seq ((orThrow_spec s _).stop_mono hSame)
  intro received
  apply Triple.pre _ (fun _ ht => ht.2)
  apply Triple.update_bind
  apply Triple.seq
    ((orThrow_spec _ _).stop_mono
      fun _ t ht => ⟨_, ht⟩)
  intro total
  apply Triple.update
  rintro t ⟨-, rfl⟩
  exact ⟨_, rfl⟩

end History

end BeamSearch
