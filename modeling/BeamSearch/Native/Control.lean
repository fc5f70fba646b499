import Mathlib.Data.List.Basic

/-
  The native context and its two threads.

  An engine thread takes jobs from the control record, works on
  them and reports them complete; a controlling thread prepares
  the engine, submits jobs, waits and cancels. Every entry point
  holds the mutex, so it is one step; `next` and `wait` let go
  of it while they wait, and look again when they wake.

  Main declarations:
    * `Control`, `Engine`, `System`
    * `Call`, `answer`
    * `Action`, `step`, `run`
-/

namespace BeamSearch

namespace Native

/- The results of the C interface. -/
inductive BeamResult where
  | ok
  | invalid
  | busy
  | failed
  | cancelled
  | timeout
  | bufferTooSmall
deriving DecidableEq, Repr

/- The phases of a worker. -/
inductive BeamPhase where
  | created
  | preparing
  | ready
  | running
  | stopped
  | error
deriving DecidableEq, Repr

/- The version that every structure of the interface names. -/
def abiVersion : UInt32 :=
  1

----------------
-- The Control Record
----------------

/-
  A job as the worker keeps it: copied, with its sequence
  number.
-/
structure Job where
  sequence : UInt64
  state : List UInt8
  directory : List UInt8
deriving DecidableEq, Repr

/- The callbacks of a history; zero is the null pointer. -/
structure HistoryApi where
  abiVersion : UInt32
  structSize : UInt32
  userData : Nat
  initialise : Nat
  write : Nat
  read : Nat
  stats : Nat
  close : Nat
  error : Nat
deriving DecidableEq, Repr

/- No callbacks. -/
def noHistory : HistoryApi :=
  ⟨0, 0, 0, 0, 0, 0, 0, 0, 0⟩

/- What the control block holds under its lock. -/
structure Control where
  phase : BeamPhase
  result : BeamResult
  completed : UInt64
  error : String
  pending : Job
  hasPending : Bool
  stop : Bool
  history : HistoryApi
deriving DecidableEq, Repr

/- The block of a new worker. -/
def Control.new : Control where
  phase := .created
  result := .ok
  completed := 0
  error := ""
  pending := ⟨0, [], []⟩
  hasPending := false
  stop := false
  history := noHistory

namespace Control

/- What `next` does before it waits. -/
def enter (control : Control) : Control :=
  if control.phase = .preparing then
    { control with phase := .ready }
  else control

/- What `next` does when it looks: it waits on, or it returns
a job, or none when the search is cancelled. -/
def take (control : Control) :
    Option (Option Job × Control) :=
  if control.hasPending || control.stop then
    if control.stop then some (none, control)
    else
      some
        (some control.pending,
          { control with hasPending := false })
  else none

/- Nothing where the code throws. -/
def complete
    (sequence : UInt64)
    (control : Control) : Option Control :=
  if sequence ≠ control.completed ∨ control.phase ≠ .running then
    none
  else
    some
      { control with
        completed := control.completed + 1
        phase := .ready }

/-
  The end of the worker. A stop that was asked for hides the
  engine's code.
-/
def finish
    (code : BeamResult)
    (message : String)
    (control : Control) : Control :=
  let result := if control.stop then .cancelled else code
  { control with
    result := result
    phase :=
      if result = BeamResult.failed then .error else .stopped
    error := message }

end Control

----------------
-- Calls Of The Controller
----------------

/- The arguments of a prepare, whether there is the memory to
copy each of them, and whether the thread starts. -/
structure Prepare where
  argc : Int
  argv : Option (Nat → Option String)
  reserves : Bool
  copies : Nat → Bool
  threadStarts : Bool

/- Why the arguments are not copied. -/
inductive CopyError where
  | invalidArgument
  | exhausted
deriving DecidableEq, Repr

/- The arguments, one by one; a missing one is refused. -/
def copyFrom
    (request : Prepare)
    (argv : Nat → Option String) :
    (left i : Nat) → Except CopyError (List String)
  | 0, _ => .ok []
  | left + 1, i =>
      match argv i with
      | none => .error .invalidArgument
      | some text =>
          if request.copies i then
            match copyFrom request argv left (i + 1) with
            | .ok texts => .ok (text :: texts)
            | .error error => .error error
          else .error .exhausted

/- The copy of the arguments, with the bounds of the source. -/
def copyArguments (request : Prepare) :
    Except CopyError (List String) :=
  match request.argv with
  | none => .error .invalidArgument
  | some argv =>
      if request.argc < 1 ∨ request.argc > 4096 then
        .error .invalidArgument
      else if request.reserves then
        copyFrom request argv request.argc.toNat 0
      else .error .exhausted

/- What the file system says of an output directory. -/
inductive Place where
  | usable
  | unusable
  | throws
deriving DecidableEq, Repr

/- What a submit finds: memory for its copies, the directory. -/
structure Surroundings where
  copiesDirectory : Bool
  place : Place
  copiesState : Bool
deriving DecidableEq, Repr

/- A borrowed job; `none` is the null pointer. -/
structure JobView where
  abiVersion : UInt32
  structSize : UInt32
  sequence : UInt64
  state : Option (Nat → UInt8)
  stateLen : UInt64
  outputDirectory : Option (Nat → UInt8)
  outputDirectoryLen : UInt64

/- The head of the caller's status structure. -/
structure StatusView where
  abiVersion : UInt32
  structSize : UInt32
deriving DecidableEq, Repr

/- What a status call tells. -/
structure Status where
  phase : BeamPhase
  result : BeamResult
  completedJobs : UInt64
deriving DecidableEq, Repr

/- The calls of the interface. -/
inductive Call where
  | prepare (request : Prepare)
  | setHistory (api : Option HistoryApi)
  | submit (job : Option JobView) (around : Surroundings)
  | wait (timeoutMs : UInt64)
  | cancel
  | status (view : Option StatusView)

/- The callbacks must be complete and of this version. -/
def validHistory : Option HistoryApi → Bool
  | none => false
  | some api =>
      api.abiVersion == abiVersion && api.structSize ≥ 64 &&
        api.userData != 0 && api.initialise != 0 &&
        api.write != 0 && api.read != 0 && api.stats != 0 &&
        api.close != 0 && api.error != 0

/-
  Callbacks are taken before the worker is prepared, never
  later.
-/
def setHistory
    (api : Option HistoryApi)
    (control : Control) : BeamResult × Control :=
  match api with
  | none => (.invalid, control)
  | some history =>
      if validHistory api = false then (.invalid, control)
      else if control.phase ≠ .created then (.busy, control)
      else (.ok, { control with history := history })

/- The bytes that a caller points to. -/
def bytesOf (memory : Nat → UInt8) (length : UInt64) :
    List UInt8 :=
  (List.range length.toNat).map memory

/- The copy of a well-formed job. -/
def jobOf (view : JobView) : Option Job :=
  match view.state, view.outputDirectory with
  | some state, some directory =>
      if view.abiVersion ≠ abiVersion ∨ view.structSize < 48 ∨
          view.stateLen = 0 ∨ view.stateLen > 65536 ∨
          view.outputDirectoryLen = 0 ∨
          view.outputDirectoryLen > 32768 then
        none
      else
        some
          { sequence := view.sequence
            state := bytesOf state view.stateLen
            directory :=
              bytesOf directory view.outputDirectoryLen }
  | _, _ => none

/-
  A job is only taken by a ready worker; another one answers
  busy.
-/
def submit
    (job : Option JobView)
    (around : Surroundings)
    (control : Control) : BeamResult × Control :=
  match job.bind jobOf with
  | none => (.invalid, control)
  | some job =>
      if control.phase ≠ .ready ∨ control.stop then
        (.busy, control)
      else if job.sequence ≠ control.completed then
        (.invalid, control)
      else if around.copiesDirectory = false then
        (.failed, control)
      else if 0 ∈ job.directory then (.invalid, control)
      else
        match around.place with
        | .throws => (.failed, control)
        | .unusable => (.invalid, control)
        | .usable =>
            if around.copiesState = false then (.failed, control)
            else
              (.ok,
                { control with
                  pending := job
                  hasPending := true
                  phase := .running })

/- A stop is asked for, and not taken back. -/
def cancel (control : Control) : BeamResult × Control :=
  (.ok, { control with stop := true })

/- The status as it is now. -/
def statusOf (control : Control) : Status where
  phase := control.phase
  result := control.result
  completedJobs := control.completed

/- The caller's structure has the version and the size. -/
def validStatus : Option StatusView → Bool
  | none => false
  | some view =>
      view.abiVersion == abiVersion && view.structSize ≥ 24

/- What a wait waits for. -/
def waitOver (control : Control) : Bool :=
  control.phase == .ready || control.phase == .stopped ||
    control.phase == .error

/- What a wait answers once there is something to answer. -/
def waitResult (control : Control) : BeamResult :=
  if control.stop then .cancelled else control.result

----------------
-- Two Threads
----------------

/- Where the engine thread is. -/
inductive Engine where
  | absent
  | idle
  | waiting
  | working (job : Job)
  | leaving
  | ended
deriving DecidableEq, Repr

/- The controlling thread is in no call, or in a wait. -/
inductive Controller where
  | idle
  | waiting (timeoutMs : UInt64)
deriving DecidableEq, Repr

/-
  The worker: its control block, its arguments, its engine and
  its caller.
-/
structure System where
  control : Control
  args : List String
  engine : Engine
  controller : Controller

/- A worker that was never prepared. -/
def System.new : System where
  control := Control.new
  args := []
  engine := .absent
  controller := .idle

/- What the two threads see happen. -/
inductive Event where
  | answered (call : Call) (result : BeamResult)
  | reported (status : Status)
  | delivered (job : Job)
  | declined
  | completed (sequence : UInt64)
  | threw (sequence : UInt64)
  | finished

/- How the runner ends. -/
inductive Ending where
  | returned (code : Int)
  | cancelled (message : String)
  | threw (message : String)
  | unknown

/- The result that an ending leaves. -/
def Ending.code : Ending → BeamResult
  | .returned code => if code = 0 then .ok else .failed
  | .cancelled _ => .cancelled
  | .threw _ => .failed
  | .unknown => .failed

/- Its text. -/
def Ending.message : Ending → String
  | .returned code =>
      if code = 0 then "" else "native engine returned failure"
  | .cancelled message => message
  | .threw message => message
  | .unknown => "unknown native exception"

/- A step of the caller, of the worker or of time. -/
inductive Action where
  | call (call : Call)
  | wake
  | expire
  | next
  | complete
  | finish (ending : Ending)

----------------
-- Steps
----------------

/- The worker whose thread could not be made. -/
def notStarted (control : Control) : Control :=
  control.finish .failed "cannot start native worker"

/- The worker is started once; any exception but one about the
arguments finishes the control record. -/
def prepare
    (request : Prepare)
    (system : System) : BeamResult × System :=
  match copyArguments request with
  | .error .invalidArgument => (.invalid, system)
  | .error .exhausted =>
      (.failed,
        { system with control := notStarted system.control })
  | .ok args =>
      if system.control.phase ≠ .created then (.busy, system)
      else
        let control :=
          { system.control with phase := .preparing }
        if request.threadStarts then
          (.ok,
            { system with
              control := control
              args := args
              engine := .idle })
        else
          (.failed,
            { system with
              control := notStarted control
              args := args })

/- A call that does not wait; a wait that is over at once. -/
def answer
    (call : Call)
    (system : System) : System × List Event :=
  match call with
  | .prepare request =>
      let answered := prepare request system
      (answered.2, [.answered call answered.1])
  | .setHistory api =>
      let answered := setHistory api system.control
      ({ system with control := answered.2 },
        [.answered call answered.1])
  | .submit job around =>
      let answered := submit job around system.control
      ({ system with control := answered.2 },
        [.answered call answered.1])
  | .cancel =>
      let answered := cancel system.control
      ({ system with control := answered.2 },
        [.answered call answered.1])
  | .status view =>
      if validStatus view then
        (system,
          [.reported (statusOf system.control),
            .answered call .ok])
      else (system, [.answered call .invalid])
  | .wait timeoutMs =>
      if timeoutMs > 9223372036854775807 then
        (system, [.answered call .invalid])
      else if system.control.phase = .created then
        (system, [.answered call .invalid])
      else if waitOver system.control then
        (system,
          [.answered call (waitResult system.control)])
      else
        ({ system with controller := .waiting timeoutMs }, [])

/- A waiting controller looks again, or its time is over. -/
def lookAgain
    (expired : Bool)
    (timeoutMs : UInt64)
    (system : System) : System × List Event :=
  let free := { system with controller := .idle }
  if waitOver system.control then
    (free,
      [.answered (.wait timeoutMs) (waitResult system.control)])
  else if expired then
    (free, [.answered (.wait timeoutMs) .timeout])
  else (system, [])

/- The engine looks for a job. -/
def look (system : System) : System × List Event :=
  match system.control.take with
  | none => ({ system with engine := .waiting }, [])
  | some (none, control) =>
      ({ system with
          control := control
          engine := .leaving },
        [.declined])
  | some (some job, control) =>
      ({ system with
          control := control
          engine := .working job },
        [.delivered job])

/- An action of a thread that is not there to take it does
nothing. -/
def step
    (action : Action)
    (system : System) : System × List Event :=
  match action with
  | .call call =>
      match system.controller with
      | .idle => answer call system
      | .waiting _ => (system, [])
  | .wake =>
      match system.controller with
      | .idle => (system, [])
      | .waiting timeoutMs => lookAgain false timeoutMs system
  | .expire =>
      match system.controller with
      | .idle => (system, [])
      | .waiting timeoutMs => lookAgain true timeoutMs system
  | .next =>
      match system.engine with
      | .idle =>
          look { system with control := system.control.enter }
      | .waiting => look system
      | _ => (system, [])
  | .complete =>
      match system.engine with
      | .working job =>
          match system.control.complete job.sequence with
          | some control =>
              ({ system with
                  control := control
                  engine := .idle },
                [.completed job.sequence])
          | none =>
              ({ system with engine := .leaving },
                [.threw job.sequence])
      | _ => (system, [])
  | .finish ending =>
      match system.engine with
      | .idle | .working _ | .leaving =>
          ({ system with
              control :=
                system.control.finish ending.code ending.message
              engine := .ended },
            [.finished])
      | _ => (system, [])

/- Any interleaving: a list of actions. -/
def run :
    List Action → System → System × List Event
  | [], system => (system, [])
  | action :: actions, system =>
      let first := step action system
      let rest := run actions first.1
      (rest.1, first.2 ++ rest.2)

end Native

end BeamSearch
