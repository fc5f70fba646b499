import BeamSearch.Lib.Hoare
import BeamSearch.Search.Terminal

/-
  A search session that keeps its workers.

  The first request launches the workers and stores its
  metadata; later requests with the same identity are sent to
  the same workers and lay what their log says over it. Any
  error releases everything.

  What the machine does in a call is given by an `Attempt`.

  Main declarations:
    * `SearchSession`, `Attempt`
    * `parseTerminal`
    * `composeMetadata`
    * `runInner`, `run`, `close`
    * `serve`
-/

namespace BeamSearch

open Hoare Text

/- Padded bytes of a state; the alignment is a power of two. -/
def permutationStateBytes
    (logicalBytes moves alignment : Nat) :
    Except ContractError Nat :=
  if logicalBytes = 0 ∨ ¬ (1 ≤ moves ∧ moves ≤ 255) ∨
      ¬ (alignment = 16 ∨ alignment = 32 ∨ alignment = 64) then
    .error (.invalid "permutation geometry")
  else if logicalBytes + 4 + (alignment - 1) ≥ 2 ^ 64 then
    .error (.overflow "permutation state")
  else
    .ok
      ((logicalBytes + 4 + (alignment - 1)) / alignment *
        alignment)

namespace Search

/- The errors of a session, by where they come from. -/
inductive Error where
  | message (text : String)
  | contract (error : ContractError)
  | external (text : String)
deriving DecidableEq, Repr

/- A broken contract is an error of the session. -/
def orContract {α : Type} : Result α → Except Error α
  | .ok a => .ok a
  | .error error => .error (.contract error)

----------------
-- Identities
----------------

/- What workers were prepared for. -/
structure SessionIdentity where
  graph : PermutationGraph
  graphHash : String
  modelArtifactHash : String
  modelBackend : String
  runtimeBuild : Json
  devices : List Nat
  beamWidth : Nat
  maxSteps : Nat
  options : Json
  cudaVisibleDevices : Option String
  cudaDeviceOrder : Option String
deriving DecidableEq

/- Sixty-four digits of lower-case hexadecimal. -/
def isHash (text : String) : Bool :=
  text.toList.length == 64 &&
    text.toList.all fun c => c.isDigit || ('a' ≤ c && c ≤ 'f')

namespace SessionIdentity

/- The fields that are checked without the graph. -/
def wellFormed (identity : SessionIdentity) : Bool :=
  isHash identity.graphHash &&
    isHash identity.modelArtifactHash &&
    identity.modelBackend != "" &&
    identity.runtimeBuild.asFields.isSome &&
    identity.options.asFields.isSome &&
    ((identity.runtimeBuild.index "binary_sha256").asStr.any
      isHash) &&
    identity.beamWidth != 0 &&
    !identity.devices.isEmpty &&
    decide (identity.devices.length ≤ 65535) &&
    decide identity.devices.Nodup

/- All checks of an identity. -/
def validate (identity : SessionIdentity) :
    Except Error Unit := do
  orContract identity.graph.validate
  if identity.wellFormed = false then
    .error (.message "invalid prepared session identity")
  else do
    let physical ←
      orContract
        (permutationStateBytes identity.graph.center.length
          identity.graph.generators.length 16)
    let perDevice :=
      (identity.beamWidth + identity.devices.length - 1) /
        identity.devices.length
    if perDevice * physical ≥ 2 ^ 64 then
      .error (.contract (.overflow "session frontier"))
    else .ok ()

end SessionIdentity

----------------
-- Requests
----------------

/- A line of the log, with its length in the file. -/
structure LogLine where
  bytes : Nat
  text : Text

/- Where a call looks at its deadline. -/
inductive Moment where
  | protocolLaunch
  | protocolReply
  | protocolFinish
  | protocolDone
  | submit
  | outcome
deriving DecidableEq, Repr

/- What happens around a call. -/
structure Attempt where
  process : Nat
  cancelled : Bool
  deadlineFits : Bool
  timeoutPositive : Bool
  inTime : Moment → Bool
  outcomeExists : Bool
  oldClosed : Except Error Unit
  probeLaunch : Except Error Unit
  probeReply : Except Error Json
  probeFinish : Except Error Unit
  launched : Except Error (List Nat)
  submitted : Except Error Unit
  log : Except Error (List LogLine)
  elapsed : Double
  written : Except Error Unit

/- The commands that start the workers. -/
structure Launch where
  command : List String
  protocolCommand : List String

/- What one search is asked for. -/
structure Request where
  identity : SessionIdentity
  launch : Launch
  start : List UInt8
  runDir : String
  metadata : Json
  attempt : Attempt

/- What it answers. -/
structure Outcome where
  path : Option (List Nat)
  elapsedSeconds : Double
  effectiveBeamWidth : Option Nat
  metadata : Json

----------------
-- Sessions
----------------

/- The workers that stay between searches. -/
structure ResidentWorkers where
  pids : List Nat
  sequence : Nat
deriving DecidableEq, Repr

/- The session of one process. -/
structure SearchSession where
  workers : Option ResidentWorkers
  identity : Option SessionIdentity
  metadata : Option Json
  cancelled : Bool
  closed : Bool
  owner : Nat

/- A session without workers. -/
def SearchSession.new (process : Nat) : SearchSession where
  workers := none
  identity := none
  metadata := none
  cancelled := false
  closed := false
  owner := process

/-
  The session is the state, so a failed call says what it
  left.
-/
abbrev SessionM : Type → Type :=
  EStateM Error SearchSession

/- A result, or an error. -/
def orThrow {α : Type} : Except Error α → SessionM α
  | .ok a => pure a
  | .error error => throw error

/- The workers are given up, with what was known about them. -/
def released (session : SearchSession) : SearchSession :=
  { session with
    identity := none
    metadata := none
    workers := none }

/- Everything goes before the workers are waited for. -/
def release (oldClosed : Except Error Unit) :
    SessionM PUnit := do
  let session ← get
  set (released session)
  if session.workers.isSome then orThrow oldClosed
  else pure ⟨⟩

/- The deadline is asked at each wait. -/
def remaining (attempt : Attempt) (moment : Moment) :
    Except Error Unit :=
  if attempt.inTime moment then .ok ()
  else .error (.message "native session timed out")

----------------
-- The Log
----------------

/- The longest line that is read. -/
def maxLine : Nat :=
  16 * 2 ^ 20

/- A line, refused where it is too long. -/
def readLine
    (parser : TerminalParser)
    (line : LogLine) : Except Error TerminalParser :=
  if line.bytes > maxLine then
    .error (.message "native terminal line exceeds 16 MiB")
  else orContract (parser.line line.text)

/- The log is read from its start, line by line. -/
def parseTerminal
    (log : Except Error (List LogLine))
    (graph : PermutationGraph)
    (start : List UInt8)
    (maxSteps : Option Nat) : Except Error TerminalResult := do
  let parser ←
    orContract (TerminalParser.new graph start maxSteps)
  let lines ← log
  let final ← lines.foldlM readLine parser
  orContract final.finish

/- An owner rank is one of the devices. -/
def unknownOwner (devices : Nat) (row : Json) : Bool :=
  match (row.index "owner_rank").asU64 with
  | none => true
  | some rank => decide (rank ≥ devices)

/-
  A solved search tells one record, another one a record for
  each rank; the width is the one that was asked for.
-/
def checkTerminal
    (identity : SessionIdentity)
    (terminal : TerminalResult) : Except Error Unit :=
  let metadata := Json.object terminal.metadata
  let devices := identity.devices.length
  let expected := if terminal.path.isSome then 1 else devices
  if terminal.effectiveBeamWidth ≠ some identity.beamWidth then
    .error
      (.message "resident effective beam differs from requested")
  else if (metadata.index "terminal_records").asU64 ≠
      some expected then
    .error
      (.message
        "resident search has unexpected terminal record count")
  else if
      (metadata.index "collected_solutions").asArray.any
        fun rows => rows.any (unknownOwner devices) then
    .error (.message "collection contains unknown owner rank")
  else .ok ()

----------------
-- Metadata Of An Outcome
----------------

/- The profile of the request that launched the workers. -/
def reusedProfile (profile : Json.Fields) : Json.Fields :=
  let profile := Json.remove "observed_saturated_depths" profile
  let profile :=
    Json.insert "resident_profile_reused" (.bool true) profile
  let wall :=
    (profile.lookup "calibration_total_wall_seconds").getD .null
  Json.insert "calibration_total_wall_seconds"
    (.double (.finite false 0))
    (Json.insert "original_calibration_wall_seconds" wall
      profile)

/- No slash is put between where the directory has one already. -/
def join (directory name : String) : String :=
  match directory.toList.getLast? with
  | none => name
  | some last =>
      if last = '/' then directory ++ name
      else directory ++ "/" ++ name

/- What every outcome says of its request. -/
def requestFields
    (request : Request)
    (terminal : TerminalResult)
    (workers : ResidentWorkers)
    (reused : Bool) : Json.Fields :=
  let identity := request.identity
  [("graph_hash", .string identity.graphHash),
    ("model_artifact_hash", .string identity.modelArtifactHash),
    ("devices",
      .array (identity.devices.map fun d => .integer d)),
    ("requested_beam_width", .integer identity.beamWidth),
    ("replay_valid", .bool terminal.path.isSome),
    ("log_path", .string (join request.runDir "native.log")),
    ("persistent_session",
      .object
        [("reused", .bool reused),
          ("worker_pids",
            .array (workers.pids.map fun pid => .integer pid)),
          ("request_count", .integer workers.sequence)])]

/- The log's fields, then the request's, over the base. -/
def composeMetadata
    (request : Request)
    (base : Json)
    (terminal : TerminalResult)
    (workers : ResidentWorkers)
    (reused : Bool) : Except Error Json.Fields := do
  match base.asFields with
  | none => .error (.message "invalid resident metadata")
  | some fields =>
      let fields := Json.insertAll terminal.metadata fields
      let fields :=
        Json.insertAll
          (requestFields request terminal workers reused) fields
      if reused then
        let profile :=
          (fields.lookup "profile").getD (.object [])
        match profile.asFields with
        | none => .error (.message "invalid resident profile")
        | some profile =>
            .ok
              (Json.insert "profile"
                (.object (reusedProfile profile)) fields)
      else .ok fields

----------------
-- A Call
----------------

/- Solved by the start state, or no step allowed. -/
def immediate (request : Request) : Bool :=
  request.start == request.identity.graph.center ||
    request.identity.maxSteps == 0

/- The outcome of a search that needs no worker. -/
def immediateOutcome (request : Request) : Outcome :=
  let solved :=
    request.start == request.identity.graph.center
  { path := if solved then some [] else none
    elapsedSeconds := .finite false 0
    effectiveBeamWidth := none
    metadata :=
      if solved then
        .object
          [("already_solved", .bool true),
            ("replay_valid", .bool true)]
      else .object [("budget_exhausted", .bool true)] }

/- Ask the runner for its protocol and start the workers. -/
def launchWorkers (request : Request) :
    Except Error ResidentWorkers := do
  let attempt := request.attempt
  if request.launch.command = [] ∨
      request.launch.protocolCommand = [] then
    .error (.message "empty native launch/protocol command")
  else do
    remaining attempt .protocolLaunch
    attempt.probeLaunch
    remaining attempt .protocolReply
    let reply ← attempt.probeReply
    if reply ≠
        .object [("protocol", .string "resident-search-v1")]
      then
      .error (.message "runner lacks resident-search-v1")
    else do
      remaining attempt .protocolFinish
      attempt.probeFinish
      remaining attempt .protocolDone
      let pids ← attempt.launched
      .ok { pids := pids, sequence := 0 }

/- The workers of the session; were they there already? -/
def ensureWorkers (request : Request) : SessionM Bool := do
  let session ← get
  if session.workers.isSome then pure true
  else do
    let workers ← orThrow (launchWorkers request)
    set
      { session with
        workers := some workers
        identity := some request.identity }
    pure false

/- A request the workers answer. -/
def submit (request : Request) : SessionM ResidentWorkers := do
  let session ← get
  match session.workers with
  | none => throw (.message "missing native workers")
  | some workers => do
      orThrow (remaining request.attempt .submit)
      orThrow request.attempt.submitted
      let served :=
        { workers with sequence := workers.sequence + 1 }
      set { session with workers := some served }
      pure served

/- The stored metadata, or the caller's for new workers. -/
def resultBase (request : Request) (reused : Bool) :
    SessionM Json := do
  let session ← get
  if reused then
    match session.metadata with
    | none => throw (.message "missing resident metadata")
    | some metadata => pure metadata
  else pure request.metadata

/-
  The metadata of a first search are kept for the later ones.
-/
def keepMetadata (reused : Bool) (output : Json.Fields) :
    SessionM PUnit := do
  let session ← get
  if reused then pure ⟨⟩
  else set { session with metadata := some (.object output) }

/- A search by the workers. -/
def serveRequest (request : Request) : SessionM Outcome := do
  let reused ← ensureWorkers request
  let workers ← submit request
  let terminal ←
    orThrow
      (parseTerminal request.attempt.log request.identity.graph
        request.start (some request.identity.maxSteps))
  orThrow (checkTerminal request.identity terminal)
  let base ← resultBase request reused
  let output ←
    orThrow
      (composeMetadata request base terminal workers reused)
  keepMetadata reused output
  orThrow (remaining request.attempt .outcome)
  orThrow request.attempt.written
  pure
    { path := terminal.path
      elapsedSeconds := request.attempt.elapsed
      effectiveBeamWidth := terminal.effectiveBeamWidth
      metadata := .object output }

/- A session for another identity is released. -/
def matchIdentity (request : Request) : SessionM PUnit := do
  let session ← get
  if session.identity = some request.identity then pure ⟨⟩
  else release request.attempt.oldClosed

/- Without an outcome of this directory yet. -/
def answerRequest (request : Request) : SessionM Outcome :=
  if immediate request then pure (immediateOutcome request)
  else if request.attempt.outcomeExists then
    throw
      (.message "native outcome already exists in run directory")
  else serveRequest request

/- The checks before any worker is asked. -/
def checkRequest (request : Request) : Except Error Unit := do
  if request.attempt.deadlineFits = false then
    .error (.message "session deadline overflow")
  else do
    request.identity.validate
    orContract
      (request.identity.graph.validateStart request.start)
    if request.metadata.asFields.isNone ∨
        request.attempt.timeoutPositive = false then
      .error (.message "invalid session metadata/timeout")
    else .ok ()

/- A search, once it may run at all. -/
def runInner (request : Request) : SessionM Outcome := do
  orThrow (checkRequest request)
  matchIdentity request
  answerRequest request

/- An error of a call releases the session. -/
def releasing
    {α : Type}
    (call : SessionM α) : SessionM α := fun session =>
  match call session with
  | .ok a session => .ok a session
  | .error error session => .error error (released session)

/- Only the owner may search. -/
def run (request : Request) : SessionM Outcome := do
  let session ← get
  if session.owner ≠ request.attempt.process then
    throw
      (.message "native session cannot be shared across processes")
  else do
    let cancelled :=
      session.cancelled || request.attempt.cancelled
    set { session with cancelled := cancelled }
    if session.closed || cancelled then
      throw (.message "native session cancelled or closed")
    else
      releasing (runInner request)

/- Only the owner may close. A closed session stays closed. -/
def close
    (process : Nat)
    (oldClosed : Except Error Unit) : SessionM PUnit := do
  let session ← get
  if session.owner ≠ process then
    throw
      (.message "native session cannot be shared across processes")
  else do
    set { session with closed := true, cancelled := true }
    release oldClosed

/- The outcomes of requests, whether earlier ones fail or not. -/
def serve :
    List Request → SearchSession → List (Except Error Outcome)
  | [], _ => []
  | request :: requests, session =>
      match run request session with
      | .ok outcome session =>
          .ok outcome :: serve requests session
      | .error error session =>
          .error error :: serve requests session

end Search

end BeamSearch
