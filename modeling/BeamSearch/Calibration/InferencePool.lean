import BeamSearch.Calibration.Components
import BeamSearch.Lib.DoubleArithmetic

/-
  A pool of inference processes, one for each rank.

  A process of a session stays for many requests; a one-shot
  process answers the request it was started with. The pool
  polls the lines its reader threads have parsed.

  Processes, readers, the clock and other threads act between
  any two operations of the pool. A line carries where it comes
  from; no operation reads that.

  Main declarations:
    * `Child`, `Event`, `Surroundings`
    * `validateReceipt`, `cudaCapacityRejection`
    * `start`, `readiness`
    * `measure`
-/

namespace BeamSearch

namespace Calibration

/- The rank a row names. -/
def device (row : Json) : Option Nat :=
  (Json.index "device" row).asU64

namespace InferencePool

open Text (Text)

----------------
-- Processes And Their Readers
----------------

/- Children that stay, or one child a request. -/
inductive Protocol where
  | session
  | oneshot
deriving DecidableEq, Repr

/- The call a request was made in, and what it asks. -/
structure Request where
  call : Nat
  batch : Nat
  parents : Nat
deriving DecidableEq, Repr

/- Where a line comes from. -/
inductive Origin where
  | ready (rank : Nat)
  | reply (rank : Nat) (request : Request)
deriving DecidableEq, Repr

/- A JSON object a process printed on a line of its own. -/
structure Line where
  value : Json.Fields
  origin : Origin
deriving DecidableEq

/- `first` is the line a process prints before it replies. -/
structure Child where
  first : Option Origin
  inbox : List Request
  unanswered : List Request
  output : List Line
  channel : List (Except String Line)
  reading : Bool
  exit : Option Int
  closed : Bool
  deadline : Nat
  log : String

/- Lines that are no JSON object leave no trace but in a log. -/
inductive ChildEvent where
  | begin (value : Json.Fields)
  | take
  | answer (value : Json.Fields)
  | deliver
  | lose
  | fault (text : String)
  | hangUp
  | exit (code : Int)
deriving DecidableEq

/- One step of a process or of the thread that reads it. -/
def Child.act (rank : Nat) (child : Child) : ChildEvent → Child
  | .begin value =>
      match child.exit, child.first with
      | none, some origin =>
          { child with
            first := none
            output := child.output ++ [⟨value, origin⟩] }
      | _, _ => child
  | .take =>
      match child.exit, child.inbox with
      | none, request :: inbox =>
          { child with
            inbox := inbox
            unanswered := child.unanswered ++ [request] }
      | _, _ => child
  | .answer value =>
      match child.exit, child.first, child.unanswered with
      | none, none, request :: unanswered =>
          { child with
            unanswered := unanswered
            output :=
              child.output ++ [⟨value, .reply rank request⟩] }
      | _, _, _ => child
  | .deliver =>
      match child.reading, child.output with
      | true, line :: output =>
          { child with
            output := output
            channel := child.channel ++ [.ok line] }
      | _, _ => child
  | .lose =>
      match child.reading, child.output with
      | true, _ :: output => { child with output := output }
      | _, _ => child
  | .fault text =>
      match child.reading with
      | true =>
          { child with
            reading := false
            channel := child.channel ++ [.error text] }
      | false => child
  | .hangUp =>
      match child.output with
      | [] => { child with reading := false }
      | _ => child
  | .exit code => { child with exit := child.exit.or (some code) }

----------------
-- The Pool And Its Surroundings
----------------

/- The pool: its children, its counters and its clock. -/
structure Pool where
  capacity : Nat
  ranks : List (Option Child)
  deadline : Nat
  starts : Nat
  cancelled : Bool
  closed : Bool
  now : Nat
  step : Nat
  call : Nat

/- What the pool was made with, but for its capacity. -/
structure PoolConfig where
  parents : Nat
  world : Nat
  protocol : Protocol
deriving DecidableEq, Repr

/- What may happen while the pool waits. -/
inductive Event where
  | child (rank : Nat) (event : ChildEvent)
  | pass (nanoseconds : Nat)
  | cancel
deriving DecidableEq

/- What happens before each operation, which operations of the
system fail, what the logs hold, and how long is watched. -/
structure Surroundings where
  events : Nat → List Event
  failing : Nat → Option String
  logText : String → Nat → Text
  lastInstant : Nat
  polls : Nat

/-
  How a call ends without returning: an error, or a wait that
  never ends.
-/
inductive Stop where
  | error (text : String)
  | unfinished
deriving DecidableEq, Repr

/- The pool is the state. -/
abbrev PoolM : Type → Type :=
  EStateM Stop Pool

namespace Pool

/- The child of a rank, if there is one. -/
def child? (pool : Pool) (rank : Nat) : Option Child :=
  pool.ranks[rank]?.join

/- The child of a rank is replaced. -/
def put (pool : Pool) (rank : Nat) (child : Option Child) : Pool :=
  { pool with ranks := pool.ranks.set rank child }

/- The pool after an event. -/
def react (pool : Pool) : Event → Pool
  | .child rank event =>
      match pool.child? rank with
      | none => pool
      | some child => pool.put rank (some (child.act rank event))
  | .pass nanoseconds =>
      { pool with now := pool.now + nanoseconds }
  | .cancel => { pool with cancelled := true }

end Pool

/- What the source returns as an error. -/
def raise {α : Type} (text : String) : PoolM α :=
  throw (.error text)

section Operations

variable (env : Surroundings) (config : PoolConfig)

/- The surroundings act until the next operation. -/
def pause : PoolM Unit :=
  modify fun pool =>
    { (env.events pool.step).foldl Pool.react pool with
      step := pool.step + 1 }

/- An operation of the system, which may fail. -/
def system : PoolM Unit := do
  pause env
  let pool ← get
  match env.failing pool.step with
  | some text => raise text
  | none => pure ()

/- The child of a rank is changed. -/
def modifyChild (rank : Nat) (child : Option Child) : PoolM Unit :=
  modify fun pool => pool.put rank child

/- A child that must be there. -/
def required (rank : Nat) : PoolM Child := do
  let pool ← get
  match pool.child? rank with
  | none => raise "missing inference rank"
  | some child => pure child

/-
  The time that is left; a cancelled or closed pool has none.
-/
def remaining (deadline : Nat) : PoolM Nat := do
  pause env
  let pool ← get
  if pool.closed || pool.cancelled then
    raise "inference calibration cancelled or closed"
  else if min deadline pool.deadline ≤ pool.now then
    raise "inference calibration timed out"
  else pure (min deadline pool.deadline - pool.now)

/- Whether a child has ended, and how. -/
def exitCode (rank : Nat) : PoolM (Option Int) := do
  system env
  let pool ← get
  pure ((pool.child? rank).bind Child.exit)

----------------
-- Receiving And Sending
----------------

/- A line of a child, if one has come. -/
def tryReceive (rank : Nat) :
    PoolM (Except String (Option Line)) := do
  pause env
  let child ← required rank
  let pool ← get
  if pool.cancelled then pure (.error "probe cancelled")
  else if child.closed then pure (.error "probe closed")
  else
    match child.channel with
    | .ok line :: channel => do
        modifyChild rank (some { child with channel := channel })
        pure (.ok (some line))
    | .error text :: channel => do
        modifyChild rank (some { child with channel := channel })
        pure (.error text)
    | [] =>
        if !child.reading then
          pure (.error "probe exited; inspect its log")
        else if child.deadline ≤ pool.now then
          pure (.error "probe timed out")
        else pure (.ok none)

/- A request to a child that still reads. -/
def send (rank : Nat) (request : Request) :
    PoolM (Except String Unit) := do
  pause env
  let child ← required rank
  let pool ← get
  if pool.cancelled then pure (.error "probe cancelled")
  else if child.closed || child.exit.isSome then
    pure (.error "probe is no longer running")
  else
    match env.failing pool.step with
    | some text => pure (.error text)
    | none => do
        modifyChild rank
          (some { child with inbox := child.inbox ++ [request] })
        pure (.ok ())

/- Close the input and wait for the exit code. -/
def finishLoop (rank deadline : Nat) :
    (polls : Nat) → PoolM (Except String Unit)
  | 0 => throw .unfinished
  | polls + 1 => do
      pause env
      let pool ← get
      let child ← required rank
      if pool.cancelled then pure (.error "probe cancelled")
      else
        match env.failing pool.step with
        | some text => pure (.error text)
        | none =>
            match child.exit with
            | some code =>
                if code = 0 then pure (.ok ())
                else pure (.error s!"probe exited with {code}")
            | none =>
                if deadline ≤ pool.now then
                  pure (.error "probe timed out")
                else finishLoop rank deadline polls

/- A child is waited for until the earlier deadline. -/
def awaitExit (rank timeout : Nat) :
    PoolM (Except String Unit) := do
  let pool ← get
  let child ← required rank
  if timeout = 0 then pure (.error "probe timed out")
  else
    finishLoop env rank (min (pool.now + timeout) child.deadline)
      env.polls

/- The child is closed; its cleanup may fail. -/
def closeChild (rank : Nat) : PoolM (Except String Unit) := do
  pause env
  let pool ← get
  match pool.child? rank with
  | none => pure (.ok ())
  | some child => do
      modifyChild rank (some { child with closed := true })
      match env.failing pool.step with
      | some text => pure (.error text)
      | none => pure (.ok ())

/- First the wait, then the cleanup; the first error is told. -/
def finish (rank timeout : Nat) : PoolM (Except String Unit) := do
  pause env
  let result ← awaitExit env rank timeout
  let cleanup ← closeChild env rank
  match result with
  | .error text => pure (.error text)
  | .ok () => pure cleanup

----------------
-- Releasing
----------------

/- Every process is let go of; the last failure is kept. -/
def clearRanks :
    (ranks : List Nat) → (error : Option String) →
    PoolM (Option String)
  | [], error => pure error
  | rank :: ranks, error => do
      pause env
      let pool ← get
      match pool.child? rank with
      | none => clearRanks ranks error
      | some _ => do
          modifyChild rank none
          clearRanks ranks ((env.failing pool.step).or error)

/- All children are closed, also after one could not be. -/
def clear : PoolM Unit := do
  let pool ← get
  let error ← clearRanks env (List.range pool.ranks.length) none
  match error with
  | none => pure ()
  | some text => raise text

end Operations

----------------
-- Receipts
----------------

/- The texts that mean a lack of memory. -/
def cudaCapacityRejection (text : Text) : Bool :=
  ["cuda out of memory", "cuda error: out of memory",
      "cudaerrormemoryallocation",
      "cublas_status_alloc_failed"].any fun s =>
    Text.contains s.toList (Text.lowerCase text)

/- A field of a line. -/
def field (value : Json.Fields) (key : String) : Json :=
  Json.index key (.object value)

/- A positive finite number. -/
def isPositive (value : Json) : Bool :=
  match asF64 value with
  | some seconds =>
      seconds.isFinite && Text.Double.less .zero seconds
  | none => false

/- A receipt must answer what was asked. -/
def validateReceipt
    (row : Json.Fields)
    (rank batch parents : Nat) : Except String Unit :=
  match (field row "seconds").asArray with
  | none => .error "missing inference timing cohort"
  | some seconds =>
      if (field row "batch").asU64 ≠ some batch ∨
          (field row "parents").asU64 ≠ some parents ∨
          (field row "device").asU64 ≠ some rank ∨
          field row "correctness_passed" ≠ .bool true ∨
          (field row "numeric_error").asU64 ≠ some 0 ∨
          seconds.length < 5 ∨
          (seconds.any fun v => !isPositive v) ∨
          (field row "torch_reserved_peak_bytes").asU64 = none
      then .error "invalid inference session receipt"
      else .ok ()

/- A rank that failed, and whether for lack of memory. -/
structure RankFailure where
  rank : Nat
  error : String
  capacity : Bool
deriving DecidableEq, Repr

/- What a measurement returns. -/
structure Batch where
  rows : List Line
  failures : List RankFailure
deriving DecidableEq

section Measuring

variable (env : Surroundings) (config : PoolConfig)

----------------
-- Starting
----------------

/- What a process prints first, for the request of its call. -/
def firstLine (rank : Nat) (request : Request) : Origin :=
  match config.protocol with
  | .session => .ready rank
  | .oneshot => .reply rank request

/- A process that exited is let go of. -/
def retire (rank : Nat) : PoolM Unit := do
  let pool ← get
  match pool.child? rank with
  | none => pure ()
  | some _ => do
      let code ← exitCode env rank
      match code with
      | some _ => modifyChild rank none
      | none => pure ()

/- A child is launched. -/
def launch (request : Request) (rank left : Nat) : PoolM Unit := do
  let pool ← get
  if pool.starts + 1 ≥ 2 ^ 64 then
    raise "inference start counter overflow"
  else do
    set { pool with starts := pool.starts + 1 }
    system env
    let pool ← get
    let starts := pool.starts
    modifyChild rank
      (some
        { first := some (firstLine config rank request)
          inbox := []
          unanswered := []
          output := []
          channel := []
          reading := true
          exit := none
          closed := false
          deadline := pool.now + left
          log := s!"session-{starts}-rank-{rank}.log" })

/- Did a process start? -/
def startRank
    (request : Request)
    (deadline rank : Nat) : PoolM Bool := do
  retire env rank
  let pool ← get
  if (pool.child? rank).isSome then pure false
  else do
    let _ ← remaining env deadline
    let pool ← get
    -- A process outlives a measurement with a short deadline.
    let left ← remaining env pool.deadline
    launch env config request rank left
    pure true

/- The children that were not there are started. -/
def start
    (request : Request)
    (deadline : Nat) :
    (ranks : List Nat) → PoolM (List Nat)
  | [] => pure []
  | rank :: ranks => do
      let started ← startRank env config request deadline rank
      let starting ← start request deadline ranks
      pure (if started then rank :: starting else starting)

----------------
-- Readiness
----------------

/- The line says that the child is ready. -/
def isReady (row : Json.Fields) (rank : Nat) : Bool :=
  decide (field row "ready" = .bool true) &&
    decide ((field row "device").asU64 = some rank)

/- The log of a child. -/
def readLog (log : String) : PoolM Text := do
  pause env
  let pool ← get
  pure (env.logText log pool.step)

/- The ranks that got ready, or the rejected batch. -/
def readinessPass (batch : Nat) :
    (pending : List Nat) → PoolM (Except Batch (List Nat))
  | [] => pure (.ok [])
  | rank :: pending => do
      let child ← required rank
      let received ← tryReceive env rank
      match received with
      | .ok (some row) =>
          if isReady row.value rank then do
            let others ← readinessPass batch pending
            pure (others.map fun complete => rank :: complete)
          else
            raise "inference rank did not acknowledge readiness"
      | .ok none => readinessPass batch pending
      | .error error => do
          let text ← readLog env child.log
          if !cudaCapacityRejection text then raise error
          else do
            modify fun pool =>
              { pool with capacity := min pool.capacity batch }
            clear env
            pure
              (.error
                { rows := []
                  failures :=
                    [{ rank := rank
                       error :=
                         s!"CUDA capacity rejected before readiness: {error}"
                       capacity := true }] })

/- The lines of readiness, until no rank is pending. -/
def readiness (batch deadline : Nat) :
    (polls : Nat) → (pending : List Nat) → PoolM (Option Batch)
  | _, [] => pure none
  | 0, _ => throw .unfinished
  | polls + 1, pending => do
      let _ ← remaining env deadline
      let result ← readinessPass env batch pending
      match result with
      | .error rejected => pure (some rejected)
      | .ok complete => do
          pause env
          readiness batch deadline polls
            (pending.filter fun rank => !complete.contains rank)

----------------
-- Requests And Replies
----------------

/- Why a rank failed. -/
def failedRank
    (rank : Nat)
    (error : String)
    (allowCapacity : Bool) : PoolM RankFailure := do
  pause env
  let pool ← get
  match pool.child? rank with
  | none => pure { rank, error, capacity := false }
  | some child => do
      modifyChild rank none
      let text ← readLog env child.log
      pure
        { rank
          error
          capacity := allowCapacity && cudaCapacityRejection text }

/- A one-shot process has its request from the start. -/
def ask (rank : Nat) (request : Request) :
    PoolM (Except String Unit) :=
  match config.protocol with
  | .session => send env rank request
  | .oneshot => pure (.ok ())

/- The ranks that have the request, and those that failed. -/
def sendAll (request : Request) :
    (ranks : List Nat) → PoolM (List Nat × List RankFailure)
  | [] => pure ([], [])
  | rank :: ranks => do
      let _ ← required rank
      let sent ← ask env config rank request
      match sent with
      | .ok () => do
          let (pending, failures) ← sendAll request ranks
          pure (rank :: pending, failures)
      | .error error => do
          let failure ← failedRank env rank error true
          let (pending, failures) ← sendAll request ranks
          pure (pending, failure :: failures)

/- A one-shot process has to end well, a session's to go on. -/
def acceptReply
    (deadline rank : Nat)
    (checked : Except String Unit) :
    PoolM (Except String Unit) :=
  match config.protocol with
  | .oneshot => do
      pause env
      let pool ← get
      let finished ← finish env rank (deadline - pool.now)
      match finished with
      | .error error => pure (.error error)
      | .ok () => pure checked
  | .session => do
      let code ← exitCode env rank
      if code.any fun code => decide (code ≠ 0) then
        pure (.error "inference process exited after receipt")
      else pure checked

/- The ranks a pass is done with, their rows and failures. -/
structure Received where
  complete : List Nat
  rows : List Line
  failures : List RankFailure

/- One pass over the pending ranks. -/
def receivePass (request : Request) (deadline : Nat) :
    (pending : List Nat) → PoolM Received
  | [] => pure { complete := [], rows := [], failures := [] }
  | rank :: pending => do
      let received ← tryReceive env rank
      match received with
      | .ok none => receivePass request deadline pending
      | .ok (some row) => do
          let checked :=
            validateReceipt row.value rank request.batch
              request.parents
          let accepted ← acceptReply env config deadline rank checked
          match accepted with
          | .ok () => do
              let others ← receivePass request deadline pending
              pure
                { complete := rank :: others.complete
                  rows := row :: others.rows
                  failures := others.failures }
          | .error error => do
              let failure ←
                failedRank env rank error checked.isOk
              let others ← receivePass request deadline pending
              pure
                { complete := rank :: others.complete
                  rows := others.rows
                  failures := failure :: others.failures }
      | .error error => do
          let failure ← failedRank env rank error true
          let others ← receivePass request deadline pending
          pure
            { complete := rank :: others.complete
              rows := others.rows
              failures := failure :: others.failures }

/- Passes until no rank is pending. -/
def receiveAll (request : Request) (deadline : Nat) :
    (polls : Nat) → (pending : List Nat) →
    (rows : List Line) → (failures : List RankFailure) →
    PoolM (List Line × List RankFailure)
  | _, [], rows, failures => pure (rows, failures)
  | 0, _, _, _ => throw .unfinished
  | polls + 1, pending, rows, failures => do
      let _ ← remaining env deadline
      let received ← receivePass env config request deadline pending
      pause env
      receiveAll request deadline polls
        (pending.filter fun rank =>
          !received.complete.contains rank)
        (rows ++ received.rows) (failures ++ received.failures)

----------------
-- Measuring
----------------

/- The device of a line. -/
def Line.device (row : Line) : Option Nat :=
  Calibration.device (.object row.value)

/- A missing device comes before every device. -/
def deviceKey (row : Line) : Nat :=
  (row.device.map (· + 1)).getD 0

/- The lines in the order of their devices. -/
def byDevice (rows : List Line) : List Line :=
  rows.insertionSort fun a b => deviceKey a ≤ deviceKey b

/- Children that stay must first be ready. -/
def getReady
    (request : Request)
    (deadline : Nat)
    (starting : List Nat) : PoolM (Option Batch) :=
  match config.protocol with
  | .session =>
      readiness env request.batch deadline env.polls starting
  | .oneshot => pure none

/- Children of one request are cleared after it. -/
def clearOneshot : PoolM Unit :=
  match config.protocol with
  | .session => pure ()
  | .oneshot => clear env

/- A measurement: start, ask, receive. -/
def measureInner
    (request : Request)
    (deadline : Nat) : PoolM Batch := do
  let _ ← remaining env deadline
  let starting ←
    start env config request deadline (List.range config.world)
  let rejected ← getReady env config request deadline starting
  match rejected with
  | some batch => pure batch
  | none => do
      let (pending, failed) ←
        sendAll env config request (List.range config.world)
      let (rows, failures) ←
        receiveAll env config request deadline env.polls pending
          [] failed
      clearOneshot env config
      pure { rows := byDevice rows, failures }

/- The requests that are refused before any child is asked. -/
def refused
    (pool : Pool)
    (batch parents timeout : Nat) : Option String :=
  if batch = 0 ∨ batch > pool.capacity ∨ parents < batch ∨
      parents > 2 ^ 32 - 1 ∨ timeout = 0 then
    some "invalid inference batch/parent count/timeout"
  else if config.protocol = .oneshot ∧ parents ≠ config.parents then
    some "one-shot inference must preserve its parent workload"
  else if pool.now + timeout > env.lastInstant then
    some "inference deadline overflow"
  else none

/- Whatever stops a measurement, its processes are let go of. -/
def orClear {α : Type} (program : PoolM α) : PoolM α :=
  fun pool =>
    match program pool with
    | .ok a pool => .ok a pool
    | .error .unfinished pool => .error .unfinished pool
    | .error (.error text) pool =>
        match clear env pool with
        | .ok _ pool => .error (.error text) pool
        | .error _ pool => .error (.error text) pool

/- A measurement, with its cleanup where it failed. -/
def measure (batch parents timeout : Nat) : PoolM Batch := do
  pause env
  let pool ← get
  let request : Request := ⟨pool.call, batch, parents⟩
  modify fun pool => { pool with call := pool.call + 1 }
  match refused env config pool batch parents timeout with
  | some text => raise text
  | none =>
      orClear env
        (measureInner env config request
          (min (pool.now + timeout) pool.deadline))

----------------
-- Runs
----------------

/- A pool that was just made. -/
def Pool.new (capacity deadline now : Nat) : Pool :=
  { capacity
    ranks := List.replicate config.world none
    deadline
    starts := 0
    cancelled := false
    closed := false
    now
    step := 0
    call := 0 }

/- What a caller asks for. -/
structure Asked where
  batch : Nat
  parents : Nat
  timeout : Nat
deriving DecidableEq, Repr

/- A call that returned, with the pool before and after it. -/
structure Served where
  asked : Asked
  before : Pool
  result : Except String Batch
  after : Pool

/- One call after the other, as far as they are seen to end. -/
def serve : List Asked → Pool → List Served
  | [], _ => []
  | asked :: others, pool =>
      match
        measure env config asked.batch asked.parents
          asked.timeout pool
      with
      | .ok batch after =>
          ⟨asked, pool, .ok batch, after⟩ :: serve others after
      | .error (.error text) after =>
          ⟨asked, pool, .error text, after⟩ :: serve others after
      | .error .unfinished _ => []

end Measuring

end InferencePool

end Calibration

end BeamSearch
