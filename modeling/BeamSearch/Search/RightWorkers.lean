import BeamSearch.Search.SessionLeak

/-
  A session never gives a request the wrong workers.

  The history of a session is cut where a call stands: what
  came earlier decides which workers the call may use. The
  workers belong to the request that launched them, and every
  call since then was a success under the same identity.

  Main declarations:
    * `Call`, `Turn`, `history`
    * `reach`, `Turn.Uses`
    * `Since`, `LaunchedBy`
    * `Holds`
    * `session_keepsWorkers`
-/

namespace BeamSearch

open Hoare Text

namespace Search

variable {request : Request} {session last found : SearchSession} {α : Type}
    {reused : Bool} {workers served : ResidentWorkers} {terminal : TerminalResult}
    {process : Nat}

----------------
-- Histories
----------------

/- The two calls of a session. -/
inductive Call where
  | run (request : Request)
  | close (process : Nat) (oldClosed : Except Error Unit)

/- An outcome, or nothing for a close. -/
def perform : Call → SessionM (Option Outcome)
  | .run request => do
      let outcome ← run request
      pure (some outcome)
  | .close process oldClosed => do
      let _ ← close process oldClosed
      pure none

/- A call, the session it found and the one it left. -/
structure Turn where
  call : Call
  before : SearchSession
  answer : Except Error (Option Outcome)
  after : SearchSession

/- One call with the session before and after it. -/
def turnOf (call : Call) (session : SearchSession) : Turn :=
  match perform call session with
  | .ok answer last =>
      { call := call
        before := session
        answer := .ok answer
        after := last }
  | .error error last =>
      { call := call
        before := session
        answer := .error error
        after := last }

/- The turns of some calls. -/
def history : List Call → SearchSession → List Turn
  | [], _ => []
  | call :: calls, session =>
      let turn := turnOf call session
      turn :: history calls turn.after

----------------
-- Up To The Workers
----------------

/- A call of another process, or of a session that is closed
or cancelled, is turned away. -/
def admits
    (session : SearchSession)
    (request : Request) : Bool :=
  session.owner == request.attempt.process &&
    !(session.closed ||
      (session.cancelled || request.attempt.cancelled))

/- A request sees a cancel of its own attempt too. -/
def entered
    (request : Request)
    (session : SearchSession) : SearchSession :=
  { session with
    cancelled :=
      session.cancelled || request.attempt.cancelled }

/- The call up to its workers: were they there already?
Nothing, where it needs none. -/
def reach (request : Request) : SessionM (Option Bool) := do
  orThrow (checkRequest request)
  matchIdentity request
  if immediate request || request.attempt.outcomeExists then
    pure none
  else do
    let reused ← ensureWorkers request
    pure (some reused)

/- The rest of the call, with its workers. -/
def serveReached
    (request : Request)
    (reused : Bool) : SessionM Outcome := do
  let workers ← submit request
  let terminal ←
    orThrow
      (parseTerminal request.attempt.log request.identity.graph
        request.start (some request.identity.maxSteps))
  orThrow (checkTerminal request.identity terminal)
  let base ← resultBase request reused
  let output ←
    orThrow
      (composeMetadata request base terminal workers reused)
  keepMetadata reused output
  orThrow (remaining request.attempt .outcome)
  orThrow request.attempt.written
  pure
    { path := terminal.path
      elapsedSeconds := request.attempt.elapsed
      effectiveBeamWidth := terminal.effectiveBeamWidth
      metadata := .object output }

/- What is done once it is known whether workers were found. -/
def answerReached (request : Request) :
    Option Bool → SessionM Outcome
  | none =>
      if immediate request then pure (immediateOutcome request)
      else
        throw
          (.message
            "native outcome already exists in run directory")
  | some reused => serveReached request reused

theorem runInner_eq_reach
    (request : Request) :
    runInner request = reach request >>= answerReached request := by
  have hServe :
      serveRequest request =
        ensureWorkers request >>= serveReached request :=
    rfl
  unfold runInner reach answerRequest
  simp only [bind_assoc]
  congr 1
  funext _
  congr 1
  funext _
  by_cases hImmediate : immediate request = true
  · rw [if_pos hImmediate, if_pos (by rw [hImmediate]; rfl),
      pure_bind, answerReached, if_pos hImmediate]
  · by_cases hExists : request.attempt.outcomeExists = true
    · rw [if_neg hImmediate, if_pos hExists,
        if_pos (by rw [hExists, Bool.or_true]), pure_bind,
        answerReached, if_neg hImmediate]
    · rw [if_neg hImmediate, if_neg hExists,
        if_neg (by simp [hImmediate, hExists]), hServe,
        bind_assoc]
      rfl

/- What a run does once it is let in. -/
theorem run_eq_reach
    (hAdmits : admits session request = true) :
    run request session =
      releasing (reach request >>= answerReached request)
        (entered request session) := by
  rw [admits, Bool.and_eq_true, beq_iff_eq, Bool.not_eq_true']
    at hAdmits
  rw [← runInner_eq_reach]
  change
    (if session.owner ≠ request.attempt.process then
        throw
          (.message
            "native session cannot be shared across processes")
      else do
        set (entered request session)
        if session.closed ||
            (session.cancelled || request.attempt.cancelled)
          then
          throw (.message "native session cancelled or closed")
        else releasing (runInner request) :
      SessionM Outcome) session =
      _
  rw [if_neg (not_not_intro hAdmits.1), hAdmits.2]
  rfl

----------------
-- Whose Workers
----------------

/- The turn gives its request to these workers, which the
session had before or which the turn launches. -/
structure Turn.Uses
    (turn : Turn)
    (request : Request)
    (reused : Bool)
    (workers : ResidentWorkers) : Prop where
  call : turn.call = .run request
  admitted : admits turn.before request = true
  reached :
    ∃ found,
      reach request (entered request turn.before) =
          .ok (some reused) found ∧
        found.workers = some workers

/- Turned away at once: a call of another process, or a run
of an open session whose token someone else has set. -/
def Turn.Refused (turn : Turn) : Prop :=
  match turn.call with
  | .run request =>
      admits turn.before request = false ∧
        (turn.before.owner = request.attempt.process →
          turn.before.closed = false)
  | .close process _ => turn.before.owner ≠ process

/- The turn was a close by the owner. -/
def Turn.Closes (turn : Turn) : Prop :=
  ∃ oldClosed, turn.call = .close turn.before.owner oldClosed

/- The turn ran a request of the identity and succeeded. -/
def Turn.Succeeds
    (turn : Turn)
    (identity : SessionIdentity) : Prop :=
  ∃ request outcome,
    turn.call = .run request ∧
      request.identity = identity ∧
      turn.answer = .ok (some outcome)

/- The turns from the launch of the workers on. -/
structure Since
    (launcher : Request)
    (pids : List Nat)
    (launch : Turn)
    (rest : List Turn) : Prop where
  launched :
    ∃ workers,
      launch.Uses launcher false workers ∧ workers.pids = pids
  successful :
    ∀ turn ∈ launch :: rest,
      turn.Refused ∨ turn.Succeeds launcher.identity
  kept :
    ∀ turn ∈ rest, ∀ request reused workers,
      turn.Uses request reused workers →
        reused = true ∧ workers.pids = pids

/- The request that launched the workers of a turn. -/
inductive LaunchedBy
    (earlier : List Turn)
    (request : Request) :
    Bool → ResidentWorkers → Request → Prop where
  | now
      (workers : ResidentWorkers) :
      LaunchedBy earlier request false workers request
  | before
      (past rest : List Turn)
      (launch : Turn)
      (workers : ResidentWorkers)
      (launcher : Request)
      (hEarlier : earlier = past ++ launch :: rest)
      (hSince : Since launcher workers.pids launch rest) :
      LaunchedBy earlier request true workers launcher

/- A session without workers. -/
structure Empty (session : SearchSession) : Prop where
  workers : session.workers = none
  identity : session.identity = none
  metadata : session.metadata = none

/- What an outcome of workers says of its request. -/
structure FitsIdentity
    (identity : SessionIdentity)
    (outcome : Outcome) : Prop where
  beam : outcome.effectiveBeamWidth = some identity.beamWidth
  records :
    (outcome.metadata.index "terminal_records").asU64 =
      some
        (if outcome.path.isSome then 1
        else identity.devices.length)

/- No collected solution has an owner outside the devices. -/
def KnownOwners
    (identity : SessionIdentity)
    (metadata : Json) : Prop :=
  ∀ rows,
    (metadata.index "collected_solutions").asArray = some rows →
    ∀ row ∈ rows,
      unknownOwner identity.devices.length row = false

----------------
-- The Promise Of A Turn
----------------

/- What a turn promises about the workers it used. -/
structure KeepsWorkers
    (earlier : List Turn)
    (turn : Turn) : Prop where
  paired :
    turn.after.workers.isSome = turn.after.identity.isSome
  used :
    ∀ request reused workers,
      turn.Uses request reused workers →
      ∃ launcher,
        LaunchedBy earlier request reused workers launcher ∧
          request.identity = launcher.identity
  closes : turn.Closes → Empty turn.after
  closed :
    (∃ closing ∈ earlier, closing.Closes) →
      Empty turn.after ∧
        ∀ request, turn.call = .run request →
          ∃ error, turn.answer = .error error
  answers :
    ∀ request reused workers outcome,
      turn.Uses request reused workers →
      turn.answer = .ok (some outcome) →
      FitsIdentity request.identity outcome

/- Any error releases, and every owner is a device. -/
structure NeverWrong
    (earlier : List Turn)
    (turn : Turn) : Prop extends
    KeepsWorkers earlier turn where
  released :
    ∀ error, turn.answer = .error error → Empty turn.after
  owners :
    ∀ request reused workers outcome,
      turn.Uses request reused workers →
      turn.answer = .ok (some outcome) →
      KnownOwners request.identity outcome.metadata

/- A call that is turned away changes nothing, and an outcome
shows what the launcher's metadata had. -/
structure RightWorkers
    (earlier : List Turn)
    (turn : Turn) : Prop extends
    KeepsWorkers earlier turn where
  released :
    ∀ error, turn.answer = .error error →
      Empty turn.after ∨
        turn.Refused ∧
          turn.after.workers = turn.before.workers ∧
          turn.after.identity = turn.before.identity ∧
          turn.after.metadata = turn.before.metadata
  owners :
    ∀ request reused workers outcome,
      turn.Uses request reused workers →
      turn.answer = .ok (some outcome) →
      ∃ launcher,
        LaunchedBy earlier request reused workers launcher ∧
          (KnownOwners launcher.identity launcher.metadata →
            KnownOwners request.identity outcome.metadata)

/- A promise of every turn, given those before it. -/
def Throughout
    (promise : List Turn → Turn → Prop)
    (turns : List Turn) : Prop :=
  ∀ earlier turn later,
    turns = earlier ++ turn :: later → promise earlier turn

/- From the session's own process, with no token set by
another hand. -/
def Own (process : Nat) : Call → Prop
  | .run request =>
      request.attempt.process = process ∧
        request.attempt.cancelled = false
  | .close caller _ => caller = process

----------------
-- What A Call Leaves Alone
----------------

/- Who owns a session and whether it is closed or cancelled
is settled before a call does anything. -/
structure SameStanding
    (start last : SearchSession) : Prop where
  owner : last.owner = start.owner
  closed : last.closed = start.closed
  cancelled : last.cancelled = start.cancelled

/- A program that leaves the standing as it is. -/
def Fixed {α : Type} (program : SessionM α) : Prop :=
  ∀ start : SearchSession,
    Triple (fun s => s = start) program
      (fun _ => SameStanding start) fun _ => SameStanding start

theorem SameStanding.trans
    {start middle : SearchSession}
    (hFirst : SameStanding start middle)
    (hSecond : SameStanding middle last) :
    SameStanding start last :=
  ⟨hSecond.owner.trans hFirst.owner,
    hSecond.closed.trans hFirst.closed,
    hSecond.cancelled.trans hFirst.cancelled⟩

/- Two fixed steps, one behind the other. -/
theorem Fixed.seq
    {β : Type}
    {first : SessionM β}
    {next : β → SessionM α}
    (hFirst : Fixed first)
    (hNext : ∀ b, Fixed (next b)) :
    Fixed (first >>= next) := by
  intro start
  apply (hFirst start).seq
  intro b s hSame
  have hRun := hNext b s s rfl
  cases hResult : next b s with
  | ok a last =>
      rw [hResult] at hRun
      exact hSame.trans hRun
  | error error last =>
      rw [hResult] at hRun
      exact hSame.trans hRun

theorem fixed_pure
    (a : α) :
    Fixed (pure a : SessionM α) := by
  rintro start s rfl
  exact ⟨rfl, rfl, rfl⟩

theorem fixed_throw
    (error : Error) :
    Fixed (throw error : SessionM α) := by
  rintro start s rfl
  exact ⟨rfl, rfl, rfl⟩

theorem fixed_orThrow
    (result : Except Error α) :
    Fixed (orThrow result) := by
  cases result with
  | ok a => exact fixed_pure a
  | error error => exact fixed_throw error

theorem fixed_get_bind
    {next : SearchSession → SessionM α}
    (hNext :
      ∀ start,
        Triple (fun s => s = start) (next start)
          (fun _ => SameStanding start)
          fun _ => SameStanding start) :
    Fixed (get >>= next) := by
  rintro start s rfl
  exact hNext s s rfl

/- Releasing the workers leaves the standing. -/
theorem fixed_release
    (oldClosed : Except Error Unit) :
    Fixed (release oldClosed) := by
  apply fixed_get_bind
  intro start
  have hReleased : SameStanding start (released start) :=
    ⟨rfl, rfl, rfl⟩
  split_ifs
  · cases oldClosed with
    | ok _ =>
        rintro s rfl
        exact hReleased
    | error error =>
        rintro s rfl
        exact hReleased
  · rintro s rfl
    exact hReleased

/- So does matching the identity. -/
theorem fixed_matchIdentity
    (request : Request) :
    Fixed (matchIdentity request) := by
  apply fixed_get_bind
  intro start
  split_ifs
  · exact fixed_pure PUnit.unit start
  · exact fixed_release request.attempt.oldClosed start

/- So does starting the workers. -/
theorem fixed_ensureWorkers
    (request : Request) :
    Fixed (ensureWorkers request) := by
  apply fixed_get_bind
  rintro start
  split_ifs
  · exact fixed_pure true start
  · cases hLaunch : launchWorkers request with
    | error error => exact fixed_throw error start
    | ok workers =>
        rintro s rfl
        exact ⟨rfl, rfl, rfl⟩

/- So does a request to the workers. -/
theorem fixed_submit
    (request : Request) :
    Fixed (submit request) := by
  apply fixed_get_bind
  intro start
  cases hWorkers : start.workers with
  | none => exact fixed_throw _ start
  | some workers =>
      cases hTime : remaining request.attempt .submit with
      | error error => exact fixed_throw error start
      | ok _ =>
          cases hSubmitted : request.attempt.submitted with
          | error error => exact fixed_throw error start
          | ok _ =>
              rintro s rfl
              exact ⟨rfl, rfl, rfl⟩

theorem fixed_resultBase
    (request : Request)
    (reused : Bool) :
    Fixed (resultBase request reused) := by
  apply fixed_get_bind
  intro start
  cases reused with
  | false => exact fixed_pure _ start
  | true =>
      cases hMetadata : start.metadata with
      | none => exact fixed_throw _ start
      | some metadata => exact fixed_pure metadata start

theorem fixed_keepMetadata
    (reused : Bool)
    (output : Json.Fields) :
    Fixed (keepMetadata reused output) := by
  apply fixed_get_bind
  intro start
  cases reused with
  | true => exact fixed_pure PUnit.unit start
  | false =>
      rintro s rfl
      exact ⟨rfl, rfl, rfl⟩

/- A request that is served leaves the standing. -/
theorem fixed_serveRequest
    (request : Request) :
    Fixed (serveRequest request) :=
  (fixed_ensureWorkers request).seq fun reused =>
    (fixed_submit request).seq fun _ =>
      (fixed_orThrow _).seq fun _ =>
        (fixed_orThrow _).seq fun _ =>
          (fixed_resultBase request reused).seq fun _ =>
            (fixed_orThrow _).seq fun output =>
              (fixed_keepMetadata reused output).seq fun _ =>
                (fixed_orThrow _).seq fun _ =>
                  (fixed_orThrow _).seq fun _ => fixed_pure _

/- So does every request. -/
theorem fixed_runInner
    (request : Request) :
    Fixed (runInner request) := by
  refine
    (fixed_orThrow _).seq fun _ =>
      (fixed_matchIdentity request).seq fun _ => ?_
  rw [answerRequest]
  split_ifs
  · exact fixed_pure _
  · exact fixed_throw _
  · exact fixed_serveRequest request

----------------
-- What A Run Does
----------------

/- A request reaches the workers at hand, or new ones. -/
theorem reach_eq_ok
    {reused : Option Bool}
    (hReach : reach request session = .ok reused found) :
    (reused = none ∧ found = matched request session) ∨
      (reused = some true ∧
        (matched request session).workers ≠ none ∧
        found = matched request session) ∨
      (reused = some false ∧
        (matched request session).workers = none ∧
        ∃ workers,
          found =
            { matched request session with
              workers := some workers
              identity := some request.identity }) := by
  rcases orThrow_bind_eq_ok hReach with ⟨_, -, hRun⟩
  rcases bind_eq_ok hRun with ⟨_, left, hMatch, hRun'⟩
  have hLeft := matchIdentity_eq_ok hMatch
  subst hLeft
  split_ifs at hRun' with hNone
  · cases hRun'
    exact Or.inl ⟨rfl, rfl⟩
  · rcases bind_eq_ok hRun' with ⟨kept, last, hEnsure, hPure⟩
    cases hPure
    rcases ensureWorkers_eq_ok hEnsure with
      ⟨rfl, hWorkers, hSame⟩ | ⟨rfl, hWorkers, hLaunched⟩
    · exact Or.inr (Or.inl ⟨rfl, hWorkers, hSame⟩)
    · exact Or.inr (Or.inr ⟨rfl, hWorkers, hLaunched⟩)

theorem reach_closed
    {reused : Option Bool}
    (hReach : reach request session = .ok reused found) :
    found.closed = session.closed := by
  have hMatched :
      (matched request session).closed = session.closed := by
    rw [matched]
    split_ifs <;> rfl
  rcases reach_eq_ok hReach with
    ⟨-, rfl⟩ | ⟨-, -, rfl⟩ | ⟨-, -, workers, rfl⟩
  · exact hMatched
  · exact hMatched
  · exact hMatched

/- Workers are still there only under an equal identity. -/
theorem matched_of_workers
    (hWorkers : (matched request session).workers ≠ none) :
    session.identity = some request.identity ∧
      matched request session = session := by
  rw [matched] at hWorkers ⊢
  split_ifs at hWorkers ⊢ with hSame
  · exact ⟨hSame, rfl⟩
  · exact absurd rfl hWorkers

variable {turn : Turn}

/- Workers are used again, or they are new. -/
theorem Turn.Uses.cases
    (hUses : turn.Uses request reused workers) :
    (reused = true ∧
        turn.before.identity = some request.identity ∧
        turn.before.workers = some workers) ∨
      reused = false := by
  rcases hUses.reached with ⟨found, hReach, hFound⟩
  rcases reach_eq_ok hReach with
    ⟨hNone, -⟩ | ⟨hReused, hWorkers, hSame⟩ | ⟨hReused, -⟩
  · cases hNone
  · cases hReused
    rcases matched_of_workers hWorkers with ⟨hIdentity, hKept⟩
    rw [hSame, hKept] at hFound
    exact Or.inl ⟨rfl, hIdentity, hFound⟩
  · cases hReused
    exact Or.inr rfl

/- The workers that serve are the ones at hand. -/
theorem submit_serves
    (hWorkers : session.workers = some workers)
    (hRun : submit request session = .ok served last) :
    served.pids = workers.pids ∧
      last = { session with workers := some served } := by
  refine ⟨?_, submit_eq_ok hRun⟩
  rcases bind_eq_ok hRun with ⟨s, t, hGet, hMatch⟩
  cases hGet
  rw [hWorkers] at hMatch
  rcases orThrow_bind_eq_ok hMatch with ⟨_, -, hSubmit⟩
  rcases orThrow_bind_eq_ok hSubmit with ⟨_, -, hSet⟩
  cases hSet
  rfl

/- What the workers' log had to say for an outcome. -/
structure ServedBy
    (request : Request)
    (reused : Bool)
    (found last : SearchSession)
    (served : ResidentWorkers)
    (terminal : TerminalResult)
    (base : Json)
    (output : Json.Fields) : Prop where
  parsed : parseRequest request = .ok terminal
  checked : checkTerminal request.identity terminal = .ok ()
  based :
    if reused then found.metadata = some base
    else base = request.metadata
  composed :
    composeMetadata request base terminal served reused =
      .ok output
  left :
    last =
      { found with
        workers := some served
        metadata :=
          if reused then found.metadata
          else some (.object output) }

/- The outcome is what these workers answered. -/
theorem serveReached_eq_ok
    {outcome : Outcome}
    (hWorkers : found.workers = some workers)
    (hRun :
      serveReached request reused found = .ok outcome last) :
    ∃ served terminal base output,
      served.pids = workers.pids ∧
        outcome = outcomeOf request terminal output ∧
        ServedBy request reused found last served terminal base
          output := by
  rcases bind_eq_ok hRun with ⟨served, s₁, hSubmit, hRun₁⟩
  rcases orThrow_bind_eq_ok hRun₁ with ⟨terminal, hParse, hRun₂⟩
  rcases orThrow_bind_eq_ok hRun₂ with ⟨_, hCheck, hRun₃⟩
  rcases bind_eq_ok hRun₃ with ⟨base, s₄, hBase, hRun₄⟩
  rcases orThrow_bind_eq_ok hRun₄ with ⟨output, hOutput, hRun₅⟩
  rcases bind_eq_ok hRun₅ with ⟨_, s₆, hKeep, hRun₆⟩
  rcases orThrow_bind_eq_ok hRun₆ with ⟨_, -, hRun₇⟩
  rcases orThrow_bind_eq_ok hRun₇ with ⟨_, -, hRun₈⟩
  cases hRun₈
  rcases submit_serves hWorkers hSubmit with ⟨hPids, hSubmitted⟩
  rcases resultBase_eq_ok hBase with ⟨hSame, hFrom⟩
  have hKept := keepMetadata_eq_ok hKeep
  rw [hSubmitted] at hFrom
  refine
    ⟨served, terminal, base, output, hPids, rfl,
      hParse, hCheck, hFrom, hOutput, ?_⟩
  rw [hKept, hSame, hSubmitted]
  cases reused <;> rfl

/- A checked terminal has the widths of its identity. -/
theorem checkTerminal_eq_ok
    {identity : SessionIdentity}
    (hCheck : checkTerminal identity terminal = .ok ()) :
    terminal.effectiveBeamWidth = some identity.beamWidth ∧
      ((Json.object terminal.metadata).index
          "terminal_records").asU64 =
        some
          (if terminal.path.isSome then 1
          else identity.devices.length) ∧
      KnownOwners identity (.object terminal.metadata) := by
  unfold checkTerminal at hCheck
  dsimp only at hCheck
  generalize
    (if terminal.path.isSome then 1
      else identity.devices.length) = expected at hCheck ⊢
  split_ifs at hCheck with hBeam hRecords hOwners
  refine ⟨not_not.mp hBeam, not_not.mp hRecords, ?_⟩
  intro rows hRows row hRow
  rw [hRows, Option.any_some] at hOwners
  by_contra hUnknown
  rw [Bool.not_eq_false] at hUnknown
  exact hOwners (List.any_eq_true.mpr ⟨row, hRow, hUnknown⟩)

theorem index_object
    (key : String)
    (fields : Json.Fields) :
    (Json.object fields).index key =
      (fields.lookup key).getD .null :=
  rfl

/- An outcome has what its log was checked for. -/
theorem ServedBy.fits
    {base : Json}
    {output : Json.Fields}
    (hServed :
      ServedBy request reused found last served terminal base
        output) :
    FitsIdentity request.identity
      (outcomeOf request terminal output) := by
  rcases checkTerminal_eq_ok hServed.checked with
    ⟨hBeam, hRecords, -⟩
  rcases composeMetadata_lookup
      (parseRequest_eq_ok hServed.parsed).1 hServed.composed with
    ⟨fields, -, hLookup⟩
  refine ⟨hBeam, ?_⟩
  change ((Json.object output).index "terminal_records").asU64 = _
  rw [index_object, hLookup "terminal_records" (by decide)]
  rw [index_object] at hRecords
  cases hOwn : terminal.metadata.lookup "terminal_records" with
  | none =>
      rw [hOwn] at hRecords
      cases hRecords
  | some value =>
      rw [hOwn] at hRecords
      exact hRecords

/- A collection is the log's, or else that of the base. -/
theorem ServedBy.owners
    {base : Json}
    {output : Json.Fields}
    (hServed :
      ServedBy request reused found last served terminal base
        output)
    (hBase : KnownOwners request.identity base) :
    KnownOwners request.identity (.object output) := by
  rcases checkTerminal_eq_ok hServed.checked with
    ⟨-, -, hOwners⟩
  rcases composeMetadata_lookup
      (parseRequest_eq_ok hServed.parsed).1 hServed.composed with
    ⟨fields, rfl, hLookup⟩
  intro rows hRows
  rw [index_object, hLookup "collected_solutions" (by decide)]
    at hRows
  cases hOwn : terminal.metadata.lookup "collected_solutions" with
  | none =>
      rw [hOwn, Option.none_or] at hRows
      exact hBase rows hRows
  | some value =>
      rw [hOwn, Option.some_or] at hRows
      apply hOwners rows
      rw [index_object, hOwn]
      exact hRows

/- What a run answers and leaves. -/
inductive RunOf
    (request : Request)
    (session : SearchSession) :
    Except Error (Option Outcome) → SearchSession → Prop where
  | refused
      (error : Error)
      (cancelled : Bool)
      (hRefused : admits session request = false)
      (hToken :
        cancelled = true →
          session.cancelled || request.attempt.cancelled) :
      RunOf request session (.error error)
        { session with cancelled := cancelled }
  | failed
      (error : Error)
      (left : SearchSession)
      (hAdmits : admits session request = true)
      (hSame : SameStanding (entered request session) left) :
      RunOf request session (.error error) (released left)
  | immediate
      (hAdmits : admits session request = true)
      (hReach :
        reach request (entered request session) =
          .ok none (matched request (entered request session))) :
      RunOf request session
        (.ok (some (immediateOutcome request)))
        (matched request (entered request session))
  | served
      (reused : Bool)
      (found last : SearchSession)
      (workers served : ResidentWorkers)
      (terminal : TerminalResult)
      (base : Json)
      (output : Json.Fields)
      (hAdmits : admits session request = true)
      (hReach :
        reach request (entered request session) =
          .ok (some reused) found)
      (hWorkers : found.workers = some workers)
      (hPids : served.pids = workers.pids)
      (hServed :
        ServedBy request reused found last served terminal base
          output) :
      RunOf request session
        (.ok (some (outcomeOf request terminal output))) last

/- A refused request changes no worker. -/
theorem run_refused
    (hRefused : admits session request = false) :
    ∃ error cancelled,
      (cancelled = true →
          session.cancelled || request.attempt.cancelled) ∧
        run request session =
          .error error { session with cancelled := cancelled } := by
  rw [admits, Bool.and_eq_false_iff, Bool.not_eq_false',
    beq_eq_false_iff_ne] at hRefused
  have hRun :
      run request session =
        (if session.owner ≠ request.attempt.process then
            throw
              (.message
                "native session cannot be shared across processes")
          else do
            set (entered request session)
            if session.closed ||
                (session.cancelled || request.attempt.cancelled)
              then
              throw (.message "native session cancelled or closed")
            else releasing (runInner request) :
          SessionM Outcome) session :=
    rfl
  rw [hRun]
  by_cases hOwner : session.owner ≠ request.attempt.process
  · rw [if_pos hOwner]
    refine ⟨_, session.cancelled, fun hToken => ?_, rfl⟩
    rw [hToken, Bool.true_or]
  · rw [if_neg hOwner, hRefused.resolve_left hOwner]
    exact ⟨_, _, id, rfl⟩

/- Every run ends as one of its cases. -/
theorem runOf_result
    (request : Request)
    (session : SearchSession) :
    match run request session with
    | .ok outcome last =>
        RunOf request session (.ok (some outcome)) last
    | .error error last =>
        RunOf request session (.error error) last := by
  cases hAdmits : admits session request with
  | false =>
      rcases run_refused hAdmits with
        ⟨error, cancelled, hToken, hRun⟩
      rw [hRun]
      exact RunOf.refused error cancelled hAdmits hToken
  | true =>
      rw [run_eq_reach hAdmits, releasing]
      have hFixed :=
        fixed_runInner request (entered request session) _ rfl
      rw [runInner_eq_reach] at hFixed
      cases hCall :
          (reach request >>= answerReached request)
            (entered request session) with
      | error error left =>
          rw [hCall] at hFixed
          exact RunOf.failed error left hAdmits hFixed
      | ok outcome last =>
          rcases bind_eq_ok hCall with
            ⟨reused, found, hReach, hAnswer⟩
          cases reused with
          | none =>
              rcases reach_eq_ok hReach with
                ⟨-, rfl⟩ | ⟨hSome, -⟩ | ⟨hSome, -⟩
              · rw [answerReached] at hAnswer
                split_ifs at hAnswer with hImmediate
                · cases hAnswer
                  exact RunOf.immediate hAdmits hReach
                · cases hAnswer
              · cases hSome
              · cases hSome
          | some reused =>
              have hThere : ∃ w, found.workers = some w := by
                rcases reach_eq_ok hReach with
                  ⟨hNone, -⟩ | ⟨-, hWorkers, rfl⟩ |
                    ⟨-, -, workers, rfl⟩
                · cases hNone
                · exact Option.ne_none_iff_exists'.mp hWorkers
                · exact ⟨workers, rfl⟩
              rcases hThere with ⟨workers, hWorkers⟩
              rcases serveReached_eq_ok hWorkers hAnswer with
                ⟨served, terminal, base, output, hPids, rfl,
                  hServed⟩
              exact
                RunOf.served reused found last workers served
                  terminal base output hAdmits hReach hWorkers
                  hPids hServed

theorem perform_run
    (request : Request)
    (session : SearchSession) :
    perform (.run request) session =
      match run request session with
      | .ok outcome last => .ok (some outcome) last
      | .error error last => .error error last := by
  change EStateM.bind (run request) _ session = _
  rw [EStateM.bind]
  cases run request session <;> rfl

theorem perform_close
    (process : Nat)
    (oldClosed : Except Error Unit)
    (session : SearchSession) :
    perform (.close process oldClosed) session =
      match close process oldClosed session with
      | .ok _ last => .ok none last
      | .error error last => .error error last := by
  change EStateM.bind (close process oldClosed) _ session = _
  rw [EStateM.bind]
  cases close process oldClosed session <;> rfl

/- A turn with a request is a run. -/
theorem turnOf_run
    (request : Request)
    (session : SearchSession) :
    RunOf request session (turnOf (.run request) session).answer
      (turnOf (.run request) session).after := by
  have hRun := runOf_result request session
  rw [turnOf, perform_run]
  cases hResult : run request session with
  | ok outcome last =>
      rw [hResult] at hRun
      exact hRun
  | error error last =>
      rw [hResult] at hRun
      exact hRun

@[simp]
theorem turnOf_call
    (call : Call)
    (session : SearchSession) :
    (turnOf call session).call = call := by
  rw [turnOf]
  cases perform call session <;> rfl

@[simp]
theorem turnOf_before
    (call : Call)
    (session : SearchSession) :
    (turnOf call session).before = session := by
  rw [turnOf]
  cases perform call session <;> rfl

/- A close of the session's own process empties it. -/
theorem turnOf_close
    (oldClosed : Except Error Unit)
    (hOwner : session.owner = process) :
    (turnOf (.close process oldClosed) session).after =
      released
        { session with
          closed := true
          cancelled := true } := by
  have hClose :
      close process oldClosed session =
        (if session.workers.isSome then orThrow oldClosed
          else pure ⟨⟩ : SessionM PUnit)
          (released
            { session with
              closed := true
              cancelled := true }) := by
    change
      (if session.owner ≠ process then throw _
        else do
          set
            { session with
              closed := true
              cancelled := true }
          release oldClosed : SessionM PUnit) session =
        _
    rw [if_neg (not_not_intro hOwner)]
    rfl
  rw [turnOf, perform_close, hClose]
  split_ifs
  · cases oldClosed <;> rfl
  · rfl

theorem turnOf_close_refused
    (oldClosed : Except Error Unit)
    (hOwner : session.owner ≠ process) :
    (turnOf (.close process oldClosed) session).after =
      session := by
  have hClose :
      close process oldClosed session =
        .error
          (.message
            "native session cannot be shared across processes")
          session := by
    change
      (if session.owner ≠ process then throw _
        else do
          set
            { session with
              closed := true
              cancelled := true }
          release oldClosed : SessionM PUnit) session =
        _
    rw [if_pos hOwner]
    rfl
  rw [turnOf, perform_close, hClose]

----------------
-- The Invariant
----------------

/- Nothing, or workers that all calls since their launch
succeeded with. -/
inductive Holds
    (earlier : List Turn)
    (session : SearchSession) : Prop where
  | nothing
      (hEmpty : Empty session)
  | launched
      (past rest : List Turn)
      (launch : Turn)
      (workers : ResidentWorkers)
      (metadata : Json)
      (launcher : Request)
      (hEarlier : earlier = past ++ launch :: rest)
      (hSince : Since launcher workers.pids launch rest)
      (hWorkers : session.workers = some workers)
      (hIdentity : session.identity = some launcher.identity)
      (hMetadata : session.metadata = some metadata)
      (hOwners :
        KnownOwners launcher.identity launcher.metadata →
          KnownOwners launcher.identity metadata)

/- What is known of a session after some turns. -/
structure Reached
    (earlier : List Turn)
    (session : SearchSession) : Prop where
  holds : Holds earlier session
  closed :
    (∃ closing ∈ earlier, closing.Closes) →
      session.closed = true
  empty : session.closed = true → Empty session

variable {earlier : List Turn}

theorem Holds.paired
    (hHolds : Holds earlier session) :
    session.workers.isSome = session.identity.isSome := by
  cases hHolds with
  | nothing hEmpty =>
      rw [hEmpty.workers, hEmpty.identity]
      rfl
  | launched past rest launch workers metadata launcher hEarlier
      hSince hWorkers hIdentity =>
      rw [hWorkers, hIdentity]
      rfl

/- Since its launch a process has had only such turns. -/
theorem Since.snoc
    {launcher : Request}
    {pids : List Nat}
    {launch : Turn}
    {rest : List Turn}
    (hSince : Since launcher pids launch rest)
    (hTurn : turn.Refused ∨ turn.Succeeds launcher.identity)
    (hUses :
      ∀ request reused workers,
        turn.Uses request reused workers →
          reused = true ∧ workers.pids = pids) :
    Since launcher pids launch (rest ++ [turn]) := by
  refine ⟨hSince.launched, ?_, ?_⟩
  · intro other hOther
    rw [← List.cons_append, List.mem_append,
      List.mem_singleton] at hOther
    rcases hOther with hOld | rfl
    · exact hSince.successful other hOld
    · exact hTurn
  · intro other hOther
    rw [List.mem_append, List.mem_singleton] at hOther
    rcases hOther with hOld | rfl
    · exact hSince.kept other hOld
    · exact hUses

/- A turn that keeps what there is may follow. -/
theorem Holds.snoc
    (hHolds : Holds earlier session)
    (hPids :
      last.workers.map ResidentWorkers.pids =
        session.workers.map ResidentWorkers.pids)
    (hIdentity : last.identity = session.identity)
    (hMetadata : last.metadata = session.metadata)
    (hTurn :
      ∀ identity, session.identity = some identity →
        turn.Refused ∨ turn.Succeeds identity)
    (hUses :
      ∀ request reused workers,
        turn.Uses request reused workers →
          reused = true ∧ session.workers = some workers) :
    Holds (earlier ++ [turn]) last := by
  cases hHolds with
  | nothing hEmpty =>
      rw [hEmpty.workers, Option.map_none, Option.map_eq_none_iff]
        at hPids
      exact
        Holds.nothing
          ⟨hPids, hIdentity.trans hEmpty.identity,
            hMetadata.trans hEmpty.metadata⟩
  | launched past rest launch workers metadata launcher hEarlier
      hSince hWorkers hOldIdentity hOldMetadata hOwners =>
      rw [hWorkers, Option.map_some, Option.map_eq_some_iff]
        at hPids
      rcases hPids with ⟨kept, hKept, hSame⟩
      have hNext :
          Since launcher kept.pids launch (rest ++ [turn]) := by
        rw [hSame]
        apply hSince.snoc (hTurn _ hOldIdentity)
        intro request reused used hUse
        rcases hUses request reused used hUse with
          ⟨hReused, hUsed⟩
        rw [hWorkers] at hUsed
        cases hUsed
        exact ⟨hReused, rfl⟩
      refine
        Holds.launched past (rest ++ [turn]) launch kept metadata
          launcher ?_ hNext hKept (hIdentity.trans hOldIdentity)
          (hMetadata.trans hOldMetadata) hOwners
      rw [hEarlier, List.append_assoc, List.cons_append]

/- The workers of a turn are its own, or those the session
holds. -/
theorem Reached.uses
    (hReached : Reached earlier turn.before)
    (hUses : turn.Uses request reused workers) :
    (reused = false ∧
        LaunchedBy earlier request reused workers request) ∨
      ∃ launcher metadata,
        reused = true ∧
          LaunchedBy earlier request reused workers launcher ∧
          request.identity = launcher.identity ∧
          turn.before.metadata = some metadata ∧
          (KnownOwners launcher.identity launcher.metadata →
            KnownOwners launcher.identity metadata) := by
  rcases hUses.cases with ⟨rfl, hIdentity, hWorkers⟩ | rfl
  · cases hReached.holds with
    | nothing hEmpty =>
        rw [hEmpty.workers] at hWorkers
        cases hWorkers
    | launched past rest launch kept metadata launcher hEarlier
        hSince hKept hOldIdentity hMetadata hOwners =>
        rw [hKept] at hWorkers
        cases hWorkers
        rw [hOldIdentity] at hIdentity
        exact
          Or.inr
            ⟨launcher, metadata, rfl,
              LaunchedBy.before past rest launch _ launcher
                hEarlier hSince,
              (Option.some.inj hIdentity).symm, hMetadata, hOwners⟩
  · exact Or.inl ⟨rfl, LaunchedBy.now workers⟩

theorem not_closes_of_run
    (hCall : turn.call = .run request) :
    ¬ turn.Closes := by
  rintro ⟨oldClosed, hClose⟩
  rw [hCall] at hClose
  cases hClose

/- A run closes no session. -/
theorem closes_snoc
    (hCall : turn.call = .run request)
    (hCloses : ∃ closing ∈ earlier ++ [turn], closing.Closes) :
    ∃ closing ∈ earlier, closing.Closes := by
  rcases hCloses with ⟨closing, hMember, hClosing⟩
  rw [List.mem_append, List.mem_singleton] at hMember
  rcases hMember with hOld | rfl
  · exact ⟨closing, hOld, hClosing⟩
  · exact absurd hClosing (not_closes_of_run hCall)

theorem admits_eq_true
    (hAdmits : admits session request = true) :
    session.closed = false := by
  rw [admits, Bool.and_eq_true, Bool.not_eq_true',
    Bool.or_eq_false_iff] at hAdmits
  exact hAdmits.2.1

----------------
-- One Turn
----------------

theorem Reached.released
    (hClosed :
      (∃ closing ∈ earlier ++ [turn], closing.Closes) →
        session.closed = true)
    (hEmpty : Empty session) :
    Reached (earlier ++ [turn]) session :=
  ⟨Holds.nothing hEmpty, hClosed, fun _ => hEmpty⟩

theorem empty_released
    (session : SearchSession) :
    Empty (released session) :=
  ⟨rfl, rfl, rfl⟩

/- A run keeps what the session holds, or empties it, or
launches workers of its own. -/
theorem Reached.run
    (hReached : Reached earlier turn.before)
    (hCall : turn.call = .run request)
    (hRun : RunOf request turn.before turn.answer turn.after) :
    Reached (earlier ++ [turn]) turn.after := by
  have hUsesCall :
      ∀ other reused workers,
        turn.Uses other reused workers → other = request := by
    intro other reused workers hUses
    have hSame := hUses.call
    rw [hCall] at hSame
    cases hSame
    rfl
  have hOpen :
      admits turn.before request = true →
      (∃ closing ∈ earlier ++ [turn], closing.Closes) → False := by
    intro hAdmits hCloses
    have hClosed := hReached.closed (closes_snoc hCall hCloses)
    rw [admits_eq_true hAdmits] at hClosed
    cases hClosed
  generalize hAnswer : turn.answer = answer at hRun
  generalize turn.after = after at hRun ⊢
  cases hRun with
  | refused error cancelled hRefused =>
      refine
        ⟨?_, fun hCloses =>
          hReached.closed (closes_snoc hCall hCloses),
          fun hClosed => ?_⟩
      · refine hReached.holds.snoc rfl rfl rfl ?_ ?_
        · intro identity hIdentity
          refine Or.inl ?_
          rw [Turn.Refused, hCall]
          refine ⟨hRefused, fun _ => ?_⟩
          by_contra hClosed
          rw [Bool.not_eq_false] at hClosed
          have hNone := (hReached.empty hClosed).identity
          rw [hIdentity] at hNone
          cases hNone
        · intro other reused workers hUses
          have hOther := hUsesCall other reused workers hUses
          have hAdmitted := hUses.admitted
          rw [hOther, hRefused] at hAdmitted
          cases hAdmitted
      · have hEmpty := hReached.empty hClosed
        exact ⟨hEmpty.workers, hEmpty.identity, hEmpty.metadata⟩
  | failed error left hAdmits hSame =>
      exact
        Reached.released
          (fun hCloses => absurd hCloses (hOpen hAdmits))
          (empty_released left)
  | immediate hAdmits hReach =>
      by_cases hIdentity :
          turn.before.identity = some request.identity
      · have hKept :
            matched request (entered request turn.before) =
              entered request turn.before :=
          if_pos hIdentity
        rw [hKept]
        refine
          ⟨?_, fun hCloses => absurd hCloses (hOpen hAdmits),
            fun hClosed => ?_⟩
        · refine hReached.holds.snoc rfl rfl rfl ?_ ?_
          · intro identity hSome
            rw [hIdentity] at hSome
            exact
              Or.inr
                ⟨request, _, hCall, Option.some.inj hSome,
                  hAnswer⟩
          · intro other reused workers hUses
            have hOther := hUsesCall other reused workers hUses
            rcases hUses.reached with ⟨found, hFound, -⟩
            rw [hOther] at hFound
            cases hReach.symm.trans hFound
        · change turn.before.closed = true at hClosed
          rw [admits_eq_true hAdmits] at hClosed
          cases hClosed
      · have hGone :
            matched request (entered request turn.before) =
              Search.released (entered request turn.before) :=
          if_neg hIdentity
        rw [hGone]
        exact
          Reached.released
            (fun hCloses => absurd hCloses (hOpen hAdmits))
            (empty_released _)
  | served reused found last workers served terminal base output
      hAdmits hReach hWorkers hPids hServed =>
      have hUses : turn.Uses request reused workers :=
        ⟨hCall, hAdmits, found, hReach, hWorkers⟩
      have hSucceeds : turn.Succeeds request.identity :=
        ⟨request, _, hCall, rfl, hAnswer⟩
      have hLast := hServed.left
      subst hLast
      refine
        ⟨?_, fun hCloses => absurd hCloses (hOpen hAdmits),
          fun hClosed => ?_⟩
      · rcases reach_eq_ok hReach with
          ⟨hNone, -⟩ | ⟨hReused, hThere, rfl⟩ |
            ⟨hReused, hNone, fresh, rfl⟩
        · cases hNone
        · cases hReused
          rcases matched_of_workers hThere with
            ⟨hIdentity, hKept⟩
          rw [hKept] at hWorkers ⊢
          refine hReached.holds.snoc ?_ rfl rfl ?_ ?_
          · change some served.pids = turn.before.workers.map _
            change turn.before.workers = some workers at hWorkers
            rw [hWorkers, hPids]
            rfl
          · intro identity hSome
            change turn.before.identity = _ at hIdentity
            rw [hIdentity] at hSome
            cases hSome
            exact Or.inr hSucceeds
          · intro other again used hOther
            rcases hOther.reached with ⟨state, hState, hUsed⟩
            rw [hUsesCall other again used hOther] at hState
            cases hReach.symm.trans hState
            rw [hKept] at hUsed
            exact ⟨rfl, hUsed⟩
        · cases hReused
          cases hWorkers
          refine
            Holds.launched earlier [] turn served
              (.object output) request rfl
              ⟨⟨_, hUses, hPids.symm⟩, ?_, ?_⟩ rfl rfl rfl ?_
          · intro other hOther
            rw [List.mem_singleton] at hOther
            rw [hOther]
            exact Or.inr hSucceeds
          · intro other hOther
            exact absurd hOther List.not_mem_nil
          · intro hOwners
            have hBase := hServed.based
            rw [if_neg Bool.false_ne_true] at hBase
            exact hServed.owners (hBase ▸ hOwners)
      · change found.closed = true at hClosed
        rw [reach_closed hReach] at hClosed
        change turn.before.closed = true at hClosed
        rw [admits_eq_true hAdmits] at hClosed
        cases hClosed

/- The workers of a run belong to its caller. -/
theorem Reached.run_owners
    {base : Json}
    {output : Json.Fields}
    (hReached : Reached earlier turn.before)
    (hUses : turn.Uses request reused workers)
    (hReach :
      reach request (entered request turn.before) =
        .ok (some reused) found)
    (hServed :
      ServedBy request reused found last served terminal base
        output) :
    ∃ launcher,
      LaunchedBy earlier request reused workers launcher ∧
        (KnownOwners launcher.identity launcher.metadata →
          KnownOwners request.identity (.object output)) := by
  have hBase := hServed.based
  rcases hReached.uses hUses with
    ⟨rfl, hLaunched⟩ |
      ⟨launcher, metadata, rfl, hLaunched, hIdentity, hMetadata,
        hOwners⟩
  · rw [if_neg Bool.false_ne_true] at hBase
    refine ⟨request, hLaunched, fun hKnown => ?_⟩
    exact hServed.owners (hBase ▸ hKnown)
  · rw [if_pos rfl] at hBase
    refine ⟨launcher, hLaunched, fun hKnown => ?_⟩
    apply hServed.owners
    rcases reach_eq_ok hReach with
      ⟨hNone, -⟩ | ⟨-, hThere, rfl⟩ | ⟨hNone, -⟩
    · cases hNone
    · rw [(matched_of_workers hThere).2] at hBase
      change turn.before.metadata = some base at hBase
      rw [hMetadata] at hBase
      cases hBase
      rw [hIdentity]
      exact hOwners hKnown
    · cases hNone

/- A run meets the right workers. -/
theorem Reached.rightWorkers_run
    (hReached : Reached earlier turn.before)
    (hCall : turn.call = .run request)
    (hRun : RunOf request turn.before turn.answer turn.after) :
    RightWorkers earlier turn := by
  have hSame :
      ∀ other reused workers,
        turn.Uses other reused workers → other = request := by
    intro other reused workers hUses
    have hOther := hUses.call
    rw [hCall] at hOther
    cases hOther
    rfl
  refine
    { paired := (hReached.run hCall hRun).holds.paired
      used := ?used
      closes := fun hCloses =>
        absurd hCloses (not_closes_of_run hCall)
      closed := ?closed
      answers := ?answers
      released := ?released
      owners := ?owners }
  case used =>
    intro other reused workers hUses
    rcases hReached.uses hUses with
      ⟨-, hLaunched⟩ | ⟨launcher, -, -, hLaunched, hIdentity, -⟩
    · exact ⟨other, hLaunched, rfl⟩
    · exact ⟨launcher, hLaunched, hIdentity⟩
  case closed =>
    intro hCloses
    have hClosed := hReached.closed hCloses
    have hEmpty := hReached.empty hClosed
    have hNot : ¬ admits turn.before request = true := by
      intro hAdmits
      rw [admits_eq_true hAdmits] at hClosed
      cases hClosed
    generalize turn.answer = answer at hRun ⊢
    generalize turn.after = after at hRun ⊢
    cases hRun with
    | refused error cancelled hRefused =>
        exact
          ⟨⟨hEmpty.workers, hEmpty.identity, hEmpty.metadata⟩,
            fun _ _ => ⟨error, rfl⟩⟩
    | failed error left hAdmits => exact absurd hAdmits hNot
    | immediate hAdmits => exact absurd hAdmits hNot
    | served reused found last workers served terminal base
        output hAdmits =>
        exact absurd hAdmits hNot
  case answers =>
    intro other reused workers outcome hUses hAnswer
    cases hSame other reused workers hUses
    rcases hUses.reached with ⟨state, hState, -⟩
    generalize turn.answer = answer at hRun hAnswer
    generalize turn.after = after at hRun
    cases hRun with
    | refused error => cases hAnswer
    | failed error => cases hAnswer
    | immediate hAdmits hReach => cases hReach.symm.trans hState
    | served again found last used served terminal base output
        hAdmits hReach hWorkers hPids hServed =>
        cases hAnswer
        exact hServed.fits
  case released =>
    intro error hAnswer
    rw [Turn.Refused, hCall]
    generalize turn.answer = answer at hRun hAnswer
    generalize turn.after = after at hRun ⊢
    cases hRun with
    | refused other cancelled hRefused =>
        by_cases hClosed : turn.before.closed = true
        · have hEmpty := hReached.empty hClosed
          exact
            Or.inl
              ⟨hEmpty.workers, hEmpty.identity, hEmpty.metadata⟩
        · rw [Bool.not_eq_true] at hClosed
          exact
            Or.inr
              ⟨⟨hRefused, fun _ => hClosed⟩, rfl, rfl, rfl⟩
    | failed other left => exact Or.inl (empty_released left)
    | immediate => cases hAnswer
    | served => cases hAnswer
  case owners =>
    intro other reused workers outcome hUses hAnswer
    cases hSame other reused workers hUses
    rcases hUses.reached with ⟨state, hState, -⟩
    generalize turn.answer = answer at hRun hAnswer
    generalize turn.after = after at hRun
    cases hRun with
    | refused error => cases hAnswer
    | failed error => cases hAnswer
    | immediate hAdmits hReach => cases hReach.symm.trans hState
    | served again found last used served terminal base output
        hAdmits hReach hWorkers hPids hServed =>
        cases hAnswer
        cases hReach.symm.trans hState
        exact hReached.run_owners hUses hReach hServed

/- A close empties the session, or it is turned away. -/
inductive CloseOf
    (process : Nat)
    (session : SearchSession) : SearchSession → Prop where
  | refused
      (hOwner : session.owner ≠ process) :
      CloseOf process session session
  | closed
      (hOwner : session.owner = process) :
      CloseOf process session
        (Search.released
          { session with
            closed := true
            cancelled := true })

theorem turnOf_closeOf
    (process : Nat)
    (oldClosed : Except Error Unit)
    (session : SearchSession) :
    CloseOf process session
      (turnOf (.close process oldClosed) session).after := by
  by_cases hOwner : session.owner = process
  · rw [turnOf_close oldClosed hOwner]
    exact CloseOf.closed hOwner
  · rw [turnOf_close_refused oldClosed hOwner]
    exact CloseOf.refused hOwner

/- Closing keeps the invariant. -/
theorem Reached.close
    {oldClosed : Except Error Unit}
    (hReached : Reached earlier turn.before)
    (hCall : turn.call = .close process oldClosed)
    (hClose : CloseOf process turn.before turn.after) :
    Reached (earlier ++ [turn]) turn.after := by
  have hNoUse :
      ∀ request reused workers,
        turn.Uses request reused workers →
          reused = true ∧ turn.before.workers = some workers := by
    intro request reused workers hUses
    have hRun := hUses.call
    rw [hCall] at hRun
    cases hRun
  generalize turn.after = after at hClose ⊢
  cases hClose with
  | refused hOwner =>
      refine ⟨?_, ?_, hReached.empty⟩
      · refine hReached.holds.snoc rfl rfl rfl ?_ hNoUse
        intro identity hIdentity
        rw [Turn.Refused, hCall]
        exact Or.inl hOwner
      · rintro ⟨closing, hMember, hCloses⟩
        rw [List.mem_append, List.mem_singleton] at hMember
        rcases hMember with hOld | rfl
        · exact hReached.closed ⟨closing, hOld, hCloses⟩
        · rcases hCloses with ⟨other, hSame⟩
          rw [hCall] at hSame
          cases hSame
          exact absurd rfl hOwner
  | closed hOwner =>
      exact Reached.released (fun _ => rfl) (empty_released _)

/- Closing meets the right workers. -/
theorem Reached.rightWorkers_close
    {oldClosed : Except Error Unit}
    (hReached : Reached earlier turn.before)
    (hCall : turn.call = .close process oldClosed)
    (hClose : CloseOf process turn.before turn.after) :
    RightWorkers earlier turn := by
  have hNoUse :
      ∀ request reused workers,
        ¬ turn.Uses request reused workers := by
    intro request reused workers hUses
    have hRun := hUses.call
    rw [hCall] at hRun
    cases hRun
  refine
    { paired := (hReached.close hCall hClose).holds.paired
      used := fun request reused workers hUses =>
        absurd hUses (hNoUse request reused workers)
      closes := ?closes
      closed := ?closed
      answers := fun request reused workers outcome hUses =>
        absurd hUses (hNoUse request reused workers)
      released := ?released
      owners := fun request reused workers outcome hUses =>
        absurd hUses (hNoUse request reused workers) }
  case closes =>
    rintro ⟨other, hSame⟩
    rw [hCall] at hSame
    cases hSame
    generalize turn.after = after at hClose ⊢
    cases hClose with
    | refused hOwner => exact absurd rfl hOwner
    | closed hOwner => exact empty_released _
  case closed =>
    intro hCloses
    have hEmpty := hReached.empty (hReached.closed hCloses)
    constructor
    · generalize turn.after = after at hClose ⊢
      cases hClose with
      | refused hOwner => exact hEmpty
      | closed hOwner => exact empty_released _
    · intro request hRun
      rw [hCall] at hRun
      cases hRun
  case released =>
    intro error hAnswer
    rw [Turn.Refused, hCall]
    generalize turn.after = after at hClose ⊢
    cases hClose with
    | refused hOwner => exact Or.inr ⟨hOwner, rfl, rfl, rfl⟩
    | closed hOwner => exact Or.inl (empty_released _)

/- The two kinds of call together. -/
theorem Reached.step
    (call : Call)
    (hReached : Reached earlier session) :
    Reached (earlier ++ [turnOf call session])
        (turnOf call session).after ∧
      RightWorkers earlier (turnOf call session) := by
  have hCall := turnOf_call call session
  have hBefore := turnOf_before call session
  cases call with
  | run request =>
      have hRun := turnOf_run request session
      generalize turnOf (.run request) session = turn
        at hCall hBefore hRun ⊢
      subst hBefore
      exact
        ⟨hReached.run hCall hRun,
          hReached.rightWorkers_run hCall hRun⟩
  | close process oldClosed =>
      have hClose := turnOf_closeOf process oldClosed session
      generalize turnOf (.close process oldClosed) session = turn
        at hCall hBefore hClose ⊢
      subst hBefore
      exact
        ⟨hReached.close hCall hClose,
          hReached.rightWorkers_close hCall hClose⟩

----------------
-- Whole Histories
----------------

/- Whatever holds at one turn after any reached session holds
at all of them. -/
theorem Reached.history
    {calls : List Call}
    {past : List Turn}
    (hReached : Reached past session)
    {later : List Turn}
    (hHistory : history calls session = earlier ++ turn :: later) :
    RightWorkers (past ++ earlier) turn := by
  induction calls generalizing past session earlier with
  | nil =>
      exact
        absurd hHistory.symm
          (List.append_ne_nil_of_right_ne_nil _
            (List.cons_ne_nil _ _))
  | cons call calls ih =>
      rcases hReached.step call with ⟨hNext, hRight⟩
      cases earlier with
      | nil =>
          rw [Search.history, List.nil_append, List.cons.injEq]
            at hHistory
          rw [List.append_nil, ← hHistory.1]
          exact hRight
      | cons first earlier =>
          rw [Search.history, List.cons_append, List.cons.injEq]
            at hHistory
          rw [← List.singleton_append, ← List.append_assoc,
            ← hHistory.1]
          exact ih hNext hHistory.2

/- A new session has launched nothing. -/
theorem reached_new
    (process : Nat) :
    Reached [] (SearchSession.new process) where
  holds := Holds.nothing ⟨rfl, rfl, rfl⟩
  closed := by
    rintro ⟨closing, hMember, -⟩
    exact absurd hMember List.not_mem_nil
  empty := fun _ => ⟨rfl, rfl, rfl⟩

/- Only a close has cancelled the session. -/
structure Standing
    (process : Nat)
    (session : SearchSession) : Prop where
  owner : session.owner = process
  token : session.cancelled = true → session.closed = true

theorem Fixed.releasing
    {call : SessionM α}
    (hFixed : Fixed call) :
    Fixed (releasing call) := by
  rintro start s rfl
  have hCall := hFixed s s rfl
  rw [Search.releasing]
  cases hResult : call s with
  | ok a last =>
      rw [hResult] at hCall
      exact hCall
  | error error last =>
      rw [hResult] at hCall
      exact ⟨hCall.owner, hCall.closed, hCall.cancelled⟩

/- An admitted run leaves the standing. -/
theorem turnOf_run_standing
    (hAdmits : admits session request = true) :
    SameStanding (entered request session)
      (turnOf (.run request) session).after := by
  have hFixed :=
    (fixed_runInner request).releasing
      (entered request session) _ rfl
  rw [runInner_eq_reach, ← run_eq_reach hAdmits] at hFixed
  rw [turnOf, perform_run]
  cases hRun : run request session with
  | ok outcome last =>
      rw [hRun] at hFixed
      exact hFixed
  | error error last =>
      rw [hRun] at hFixed
      exact hFixed

/- The owner of an open session is not refused. -/
theorem Standing.step
    {call : Call}
    (hStanding : Standing process session)
    (hOwn : Own process call) :
    Standing process (turnOf call session).after ∧
      ¬ (turnOf call session).Refused := by
  rw [Turn.Refused, turnOf_call, turnOf_before]
  cases call with
  | close caller oldClosed =>
      have hOwner : session.owner = caller :=
        hStanding.owner.trans hOwn.symm
      rw [turnOf_close oldClosed hOwner]
      exact
        ⟨⟨hStanding.owner, fun _ => rfl⟩, not_not_intro hOwner⟩
  | run request =>
      have hOwner : session.owner = request.attempt.process :=
        hStanding.owner.trans hOwn.1.symm
      cases hAdmits : admits session request with
      | true =>
          have hSame := turnOf_run_standing hAdmits
          have hToken :
              (entered request session).cancelled = false := by
            rw [admits, Bool.and_eq_true, Bool.not_eq_true',
              Bool.or_eq_false_iff] at hAdmits
            exact hAdmits.2.2
          refine
            ⟨⟨hSame.owner.trans hStanding.owner, fun hSet => ?_⟩,
              fun hRefused => ?_⟩
          · rw [hSame.cancelled, hToken] at hSet
            cases hSet
          · have hFalse := hRefused.1
            rw [hAdmits] at hFalse
            cases hFalse
      | false =>
          have hToken :
              (session.cancelled ||
                  request.attempt.cancelled) = true →
                session.closed = true := by
            intro hSet
            rw [hOwn.2, Bool.or_false] at hSet
            exact hStanding.token hSet
          constructor
          · have hRun := turnOf_run request session
            generalize (turnOf (.run request) session).answer =
              answer at hRun
            generalize (turnOf (.run request) session).after =
              after at hRun ⊢
            cases hRun with
            | refused error cancelled hRefused hFrom =>
                exact
                  ⟨hStanding.owner, fun hSet =>
                    hToken (hFrom hSet)⟩
            | failed error left hTrue =>
                rw [hAdmits] at hTrue
                cases hTrue
            | immediate hTrue =>
                rw [hAdmits] at hTrue
                cases hTrue
            | served reused found last workers served terminal
                base output hTrue =>
                rw [hAdmits] at hTrue
                cases hTrue
          · intro hRefused
            have hOpen := hRefused.2 hOwner
            rw [admits, Bool.and_eq_false_iff,
              Bool.not_eq_false', beq_eq_false_iff_ne,
              Bool.or_eq_true] at hAdmits
            have hClosed : session.closed = true := by
              rcases hAdmits with hNe | hClosed | hSet
              · exact absurd hOwner hNe
              · exact hClosed
              · exact hToken hSet
            rw [hOpen] at hClosed
            cases hClosed

/- Nor is it in any run of its own calls. -/
theorem not_refused_of_own
    {calls : List Call}
    (hStanding : Standing process session)
    (hOwn : ∀ call ∈ calls, Own process call) :
    ∀ turn ∈ history calls session, ¬ turn.Refused := by
  induction calls generalizing session with
  | nil => exact fun _ hMember => absurd hMember List.not_mem_nil
  | cons call calls ih =>
      rcases hStanding.step (hOwn call List.mem_cons_self) with
        ⟨hNext, hNot⟩
      rw [history]
      intro turn hMember
      rcases List.mem_cons.mp hMember with rfl | hRest
      · exact hNot
      · exact
          ih hNext
            (fun other hOther =>
              hOwn other (List.mem_cons_of_mem _ hOther))
            turn hRest

/- The workers of a session serve only the identity they were
launched for, and only as long as all goes well. With calls of
one process and no token set from outside, any error empties
the session. -/
theorem session_rightWorkers
    (process : Nat)
    (calls : List Call) :
    Throughout RightWorkers
        (history calls (SearchSession.new process)) ∧
      ((∀ call ∈ calls, Own process call) →
        ∀ turn ∈ history calls (SearchSession.new process),
          ∀ error, turn.answer = .error error →
            Empty turn.after) := by
  have hRight :
      Throughout RightWorkers
        (history calls (SearchSession.new process)) := by
    intro earlier turn later hHistory
    exact (reached_new process).history hHistory
  refine ⟨hRight, fun hOwn turn hMember error hAnswer => ?_⟩
  rcases List.append_of_mem hMember with
    ⟨earlier, later, hHistory⟩
  have hNew : Standing process (SearchSession.new process) :=
    ⟨rfl, fun hSet => nomatch hSet⟩
  rcases (hRight earlier turn later hHistory).released error
      hAnswer with
    hEmpty | ⟨hRefused, -⟩
  · exact hEmpty
  · exact
      absurd hRefused (not_refused_of_own hNew hOwn turn hMember)

/- A caller that writes of an owner no device is. -/
def foreignRequest : Request :=
  { swapRequest solvedLog with
    metadata :=
      .object
        [("collected_solutions",
          .array [.object [("owner_rank", .integer 7)]])] }

/- A run when another thread has set the token. -/
def cancelledRequest : Request :=
  { swapRequest solvedLog with
    attempt :=
      { (swapRequest solvedLog).attempt with cancelled := true } }

/- The collected rows of a turn's outcome. -/
def shownCollection (turn : Turn) : Option Json :=
  match turn.answer with
  | .ok (some outcome) => fieldOf outcome "collected_solutions"
  | _ => none

/- The turn failed and its workers stayed. -/
def keepsAfterError (turn : Turn) : Bool :=
  match turn.answer with
  | .ok _ => false
  | .error _ => turn.after.workers.isSome

theorem index_of_fieldOf
    {outcome : Outcome}
    {key : String}
    {value : Json}
    (hField : fieldOf outcome key = some value) :
    outcome.metadata.index key = value := by
  rw [fieldOf] at hField
  rcases Option.bind_eq_some_iff.mp hField with
    ⟨fields, hFields, hLookup⟩
  cases hMetadata : outcome.metadata with
  | object own =>
      rw [hMetadata] at hFields
      cases hFields
      rw [index_object, hLookup, Option.getD_some]
  | null => rw [hMetadata] at hFields; cases hFields
  | bool value => rw [hMetadata] at hFields; cases hFields
  | integer value => rw [hMetadata] at hFields; cases hFields
  | double value => rw [hMetadata] at hFields; cases hFields
  | string value => rw [hMetadata] at hFields; cases hFields
  | array items => rw [hMetadata] at hFields; cases hFields

/-
  The workers that a request reaches, and whether they were
  there.
-/
def reachedWorkers
    (request : Request)
    (session : SearchSession) :
    Option (Bool × Option ResidentWorkers) :=
  match reach request (entered request session) with
  | .ok (some reused) found => some (reused, found.workers)
  | _ => none

theorem uses_of_reachedWorkers
    (hCall : turn.call = .run request)
    (hAdmits : admits turn.before request = true)
    (hReached :
      reachedWorkers request turn.before =
        some (reused, some workers)) :
    turn.Uses request reused workers := by
  refine ⟨hCall, hAdmits, ?_⟩
  rw [reachedWorkers] at hReached
  cases hReach : reach request (entered request turn.before) with
  | error error left =>
      rw [hReach] at hReached
      cases hReached
  | ok kept found =>
      rw [hReach] at hReached
      cases kept with
      | none => cases hReached
      | some kept =>
          rw [Option.some.injEq, Prod.mk.injEq] at hReached
          exact ⟨found, by rw [hReached.1], hReached.2⟩

/- The caller's own collection is shown with its owner, and a
token set from outside leaves the workers there. -/
theorem session_shows_callerOwners :
    ¬ Throughout NeverWrong
        (history [.run foreignRequest]
          (SearchSession.new 7)) ∧
      ¬ Throughout NeverWrong
        (history
          [.run (swapRequest solvedLog), .run cancelledRequest]
          (SearchSession.new 7)) := by
  constructor
  · intro hNever
    have hTurn :=
      hNever [] (turnOf (.run foreignRequest)
        (SearchSession.new 7)) [] rfl
    have hUses :
        (turnOf (.run foreignRequest) (SearchSession.new 7)).Uses
          foreignRequest false { pids := [100], sequence := 0 } := by
      apply uses_of_reachedWorkers (turnOf_call _ _)
      · rw [turnOf_before]
        decide
      · rw [turnOf_before]
        decide +kernel
    have hShown :
        shownCollection
            (turnOf (.run foreignRequest) (SearchSession.new 7)) =
          some
            (.array [.object [("owner_rank", .integer 7)]]) := by
      decide +kernel
    rw [shownCollection] at hShown
    generalize turnOf (.run foreignRequest)
      (SearchSession.new 7) = turn at hTurn hUses hShown
    cases hAnswer : turn.answer with
    | error error =>
        rw [hAnswer] at hShown
        cases hShown
    | ok answer =>
        rw [hAnswer] at hShown
        cases answer with
        | none => cases hShown
        | some outcome =>
            have hKnown :=
              hTurn.owners foreignRequest false _ outcome hUses
                hAnswer
            have hIndex := index_of_fieldOf hShown
            have hRow :=
              hKnown _ (by rw [hIndex]; rfl) _ List.mem_cons_self
            exact absurd hRow (by decide)
  · intro hNever
    have hTurn :=
      hNever [turnOf (.run (swapRequest solvedLog))
          (SearchSession.new 7)] _ [] rfl
    have hKept :
        keepsAfterError
            (turnOf (.run cancelledRequest)
              (turnOf (.run (swapRequest solvedLog))
                (SearchSession.new 7)).after) =
          true := by
      decide +kernel
    rw [keepsAfterError] at hKept
    cases hAnswer :
        (turnOf (.run cancelledRequest)
          (turnOf (.run (swapRequest solvedLog))
            (SearchSession.new 7)).after).answer with
    | ok answer =>
        rw [hAnswer] at hKept
        cases hKept
    | error error =>
        have hEmpty := hTurn.released error hAnswer
        rw [hAnswer, hEmpty.workers] at hKept
        cases hKept

end Search

end BeamSearch
