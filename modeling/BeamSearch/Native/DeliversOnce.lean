import BeamSearch.Native.Control

/-
  Every submitted job is delivered once.

  Between the threads a job is in one of four places: nowhere,
  offered but not taken, in the engine's hands, or left over by
  an engine that has ended. Every action moves it on, and what
  the two threads have seen so far says where it is.

  The one way out is a prepare that cannot copy its arguments
  while a job is running: it finishes the record under the
  engine.

  Main declarations:
    * `Once`, `Allowed`
    * `Steady`
    * `Situation`, `Inv`
    * `run_once`
-/

namespace BeamSearch

namespace Native

variable {events : List Event} {event : Event} {system : System} {control : Control}

----------------
-- What Was Seen
----------------

/- The job of a submit that was answered with success. -/
def submittedBy : Event → Option Job
  | .answered (.submit (some view) _) .ok => jobOf view
  | _ => none

/- The job that the engine was given. -/
def deliveredBy : Event → Option Job
  | .delivered job => some job
  | _ => none

/- The job that the engine completed. -/
def completedBy : Event → Option UInt64
  | .completed sequence => some sequence
  | _ => none

/- The jobs of the successful submits. -/
def submitted (events : List Event) : List Job :=
  events.filterMap submittedBy

/- The jobs given, in their order. -/
def delivered (events : List Event) : List Job :=
  events.filterMap deliveredBy

/- How many were completed. -/
def completions (events : List Event) : Nat :=
  (events.filterMap completedBy).length

/- A cancel was answered. -/
def Cancelled (events : List Event) : Prop :=
  .answered .cancel .ok ∈ events

/- The engine has called finish. -/
def Finished (events : List Event) : Prop :=
  .finished ∈ events

/- What may be seen after these events. -/
def Allowed (events : List Event) : Event → Prop
  | .answered (.submit _ _) .ok =>
      submitted events = delivered events ∧ ¬ Cancelled events
  | .answered (.wait _) .ok =>
      ¬ Cancelled events ∧
        (¬ Finished events →
          completions events = (submitted events).length)
  | .threw _ => False
  | _ => True

/- Jobs come once and in order, and nothing is lost unless the
search is cancelled or the engine has finished. -/
structure Once
    (events : List Event)
    (system : System) : Prop where
  sequences :
    (delivered events).map Job.sequence =
      (List.range (delivered events).length).map UInt64.ofNat
  order :
    submitted events = delivered events ∨
      system.control.hasPending = true ∧
        submitted events =
          delivered events ++ [system.control.pending]
  taken :
    system.control.hasPending = true →
    ¬ Cancelled events → ¬ Finished events →
    (step .next system).2 = [.delivered system.control.pending]
  pending :
    system.control.hasPending = true →
    system.control.phase = .running ∨
      system.control.phase = .stopped ∨
      system.control.phase = .error
  completed :
    system.control.completed = UInt64.ofNat (completions events)
  allowed :
    ∀ earlier event later,
      events = earlier ++ event :: later →
      Allowed earlier event

/- No prepare runs out of memory for its arguments while a job
is running. -/
def Steady (system : System) : Action → Prop
  | .call (.prepare request) =>
      copyArguments request = .error .exhausted →
      system.controller = .idle →
      system.control.phase ≠ .running
  | _ => True

/- Every step of the run meets its condition. -/
def Steadily : List Action → System → Prop
  | [], _ => True
  | action :: actions, system =>
      Steady system action ∧
        Steadily actions (step action system).1

----------------
-- The Invariant
----------------

/- Where the job between the threads is. -/
inductive Situation
    (events : List Event)
    (system : System) : Prop where
  | settled
      (hEngine :
        system.engine = .absent ∨ system.engine = .idle ∨
          system.engine = .waiting ∨
          system.engine = .leaving ∧ system.control.stop = true)
      (hAbsent :
        system.engine = .absent →
        system.control.phase ≠ .preparing ∧
          system.control.phase ≠ .ready)
      (hCreated :
        system.control.phase = .created →
        system.engine = .absent)
      (hPending : system.control.hasPending = false)
      (hPhase : system.control.phase ≠ .running)
      (hResult :
        system.control.phase = .stopped ∨
          system.control.phase = .error →
        system.control.result ≠ .ok)
      (hAll : submitted events = delivered events)
      (hDone : completions events = (delivered events).length)
  | offered
      (hEngine :
        system.engine = .idle ∨ system.engine = .waiting ∨
          system.engine = .leaving ∧ system.control.stop = true)
      (hPending : system.control.hasPending = true)
      (hPhase : system.control.phase = .running)
      (hSequence :
        system.control.pending.sequence =
          system.control.completed)
      (hAll :
        submitted events =
          delivered events ++ [system.control.pending])
      (hDone : completions events = (delivered events).length)
  | working
      (job : Job)
      (hEngine : system.engine = .working job)
      (hPending : system.control.hasPending = false)
      (hPhase : system.control.phase = .running)
      (hSequence : job.sequence = system.control.completed)
      (hAll : submitted events = delivered events)
      (hDone :
        completions events + 1 = (delivered events).length)
  | finished
      (hEngine : system.engine = .ended)
      (hPhase :
        system.control.phase = .stopped ∨
          system.control.phase = .error)
      (hAll :
        submitted events = delivered events ∨
          system.control.hasPending = true ∧
            submitted events =
              delivered events ++ [system.control.pending])

/-
  What the events say about the worker, in every reachable
  state.
-/
structure Inv
    (events : List Event)
    (system : System) : Prop where
  situation : Situation events system
  sequences :
    (submitted events).map Job.sequence =
      (List.range (submitted events).length).map UInt64.ofNat
  completed :
    system.control.completed = UInt64.ofNat (completions events)
  stop : Cancelled events ↔ system.control.stop = true
  ended : Finished events ↔ system.engine = .ended

/- Before the first call nothing has happened. -/
theorem inv_new : Inv [] System.new where
  situation :=
    Situation.settled (Or.inl rfl)
      (fun _ => ⟨(fun h => nomatch h), fun h => nomatch h⟩)
      (fun _ => rfl) rfl (fun h => nomatch h)
      (fun h => h.elim (fun h => nomatch h) fun h => nomatch h)
      rfl rfl
  sequences := rfl
  completed := rfl
  stop :=
    iff_of_false List.not_mem_nil Bool.false_ne_true
  ended :=
    iff_of_false List.not_mem_nil fun h => nomatch h

----------------
-- The Books
----------------

/- The same jobs and the same ends were seen. -/
structure SameBooks (events events' : List Event) : Prop where
  submitted : submitted events' = submitted events
  delivered : delivered events' = delivered events
  completions : completions events' = completions events
  cancelled : Cancelled events' ↔ Cancelled events
  finished : Finished events' ↔ Finished events

/- An event that is none of those counted. -/
structure Quiet (event : Event) : Prop where
  submitted : submittedBy event = none
  delivered : deliveredBy event = none
  completed : completedBy event = none
  cancelled : event ≠ .answered .cancel .ok
  finished : event ≠ .finished

/- An event adds what it submits. -/
theorem submitted_snoc
    (events : List Event)
    (event : Event) :
    submitted (events ++ [event]) =
      submitted events ++ (submittedBy event).toList := by
  rw [submitted, List.filterMap_append, submitted,
    List.filterMap_cons, List.filterMap_nil]
  cases submittedBy event <;> rfl

/- An event adds what it delivers. -/
theorem delivered_snoc
    (events : List Event)
    (event : Event) :
    delivered (events ++ [event]) =
      delivered events ++ (deliveredBy event).toList := by
  rw [delivered, List.filterMap_append, delivered,
    List.filterMap_cons, List.filterMap_nil]
  cases deliveredBy event <;> rfl

/- An event adds what it completes. -/
theorem completions_snoc
    (events : List Event)
    (event : Event) :
    completions (events ++ [event]) =
      completions events + (completedBy event).toList.length := by
  rw [completions, List.filterMap_append, List.length_append,
    completions, List.filterMap_cons, List.filterMap_nil]
  cases completedBy event <;> rfl

theorem mem_snoc_of_ne
    {other : Event}
    (hNe : event ≠ other) :
    other ∈ events ++ [event] ↔ other ∈ events := by
  rw [List.mem_append, List.mem_singleton]
  exact or_iff_left fun hSame => hNe hSame.symm

/- A quiet event is in no book. -/
theorem Quiet.sameBooks
    (hQuiet : Quiet event)
    (events : List Event) :
    SameBooks events (events ++ [event]) where
  submitted := by
    rw [submitted_snoc, hQuiet.submitted]
    exact List.append_nil _
  delivered := by
    rw [delivered_snoc, hQuiet.delivered]
    exact List.append_nil _
  completions := by
    rw [completions_snoc, hQuiet.completed]
    rfl
  cancelled := mem_snoc_of_ne hQuiet.cancelled
  finished := mem_snoc_of_ne hQuiet.finished

/- The situation depends on the books alone. -/
theorem Situation.congr
    {events' : List Event}
    (hSituation : Situation events system)
    (hBooks : SameBooks events events') :
    Situation events' system := by
  cases hSituation with
  | settled hEngine hAbsent hCreated hPending hPhase hResult hAll
      hDone =>
      refine
        Situation.settled hEngine hAbsent hCreated hPending hPhase
          hResult ?_ ?_
      · rw [hBooks.submitted, hBooks.delivered]
        exact hAll
      · rw [hBooks.completions, hBooks.delivered]
        exact hDone
  | offered hEngine hPending hPhase hSequence hAll hDone =>
      refine
        Situation.offered hEngine hPending hPhase hSequence ?_ ?_
      · rw [hBooks.submitted, hBooks.delivered]
        exact hAll
      · rw [hBooks.completions, hBooks.delivered]
        exact hDone
  | working job hEngine hPending hPhase hSequence hAll hDone =>
      refine
        Situation.working job hEngine hPending hPhase hSequence
          ?_ ?_
      · rw [hBooks.submitted, hBooks.delivered]
        exact hAll
      · rw [hBooks.completions, hBooks.delivered]
        exact hDone
  | finished hEngine hPhase hAll =>
      refine Situation.finished hEngine hPhase ?_
      rw [hBooks.submitted, hBooks.delivered]
      exact hAll

/- So does the invariant. -/
theorem Inv.congr
    {events' : List Event}
    (hInv : Inv events system)
    (hBooks : SameBooks events events') :
    Inv events' system where
  situation := hInv.situation.congr hBooks
  sequences := by
    rw [hBooks.submitted]
    exact hInv.sequences
  completed := by
    rw [hBooks.completions]
    exact hInv.completed
  stop := hBooks.cancelled.trans hInv.stop
  ended := hBooks.finished.trans hInv.ended

/- A system with the same record, up to its history and error,
and the engine at the same place. -/
structure SameRecord (system system' : System) : Prop where
  phase : system'.control.phase = system.control.phase
  result : system'.control.result = system.control.result
  completed :
    system'.control.completed = system.control.completed
  pending : system'.control.pending = system.control.pending
  hasPending :
    system'.control.hasPending = system.control.hasPending
  stop : system'.control.stop = system.control.stop
  engine : system'.engine = system.engine

/- It depends on the record of the system alone. -/
theorem Inv.sameRecord
    {system' : System}
    (hInv : Inv events system)
    (hSame : SameRecord system system') :
    Inv events system' where
  situation := by
    cases hInv.situation with
    | settled hEngine hAbsent hCreated hPending hPhase hResult
        hAll hDone =>
        refine
          Situation.settled ?_ ?_ ?_ ?_ ?_ ?_ hAll hDone
        · rw [hSame.engine, hSame.stop]
          exact hEngine
        · rw [hSame.engine, hSame.phase]
          exact hAbsent
        · rw [hSame.engine, hSame.phase]
          exact hCreated
        · rw [hSame.hasPending]
          exact hPending
        · rw [hSame.phase]
          exact hPhase
        · rw [hSame.phase, hSame.result]
          exact hResult
    | offered hEngine hPending hPhase hSequence hAll hDone =>
        refine Situation.offered ?_ ?_ ?_ ?_ ?_ hDone
        · rw [hSame.engine, hSame.stop]
          exact hEngine
        · rw [hSame.hasPending]
          exact hPending
        · rw [hSame.phase]
          exact hPhase
        · rw [hSame.pending, hSame.completed]
          exact hSequence
        · rw [hSame.pending]
          exact hAll
    | working job hEngine hPending hPhase hSequence hAll hDone =>
        refine Situation.working job ?_ ?_ ?_ ?_ hAll hDone
        · rw [hSame.engine]
          exact hEngine
        · rw [hSame.hasPending]
          exact hPending
        · rw [hSame.phase]
          exact hPhase
        · rw [hSame.completed]
          exact hSequence
    | finished hEngine hPhase hAll =>
        refine Situation.finished ?_ ?_ ?_
        · rw [hSame.engine]
          exact hEngine
        · rw [hSame.phase]
          exact hPhase
        · rw [hSame.hasPending, hSame.pending]
          exact hAll
  sequences := hInv.sequences
  completed := by
    rw [hSame.completed]
    exact hInv.completed
  stop := by
    rw [hSame.stop]
    exact hInv.stop
  ended := by
    rw [hSame.engine]
    exact hInv.ended

----------------
-- Answers
----------------

/- What a step must keep of the invariant and of what may be
seen. -/
structure Kept
    (events : List Event)
    (stepped : System × List Event) : Prop where
  inv : Inv (events ++ stepped.2) stepped.1
  allowed :
    ∀ earlier event later,
      stepped.2 = earlier ++ event :: later →
      Allowed (events ++ earlier) event

/- A step without an event keeps the books. -/
theorem Kept.silent
    (hInv : Inv events system) :
    Kept events (system, []) where
  inv := by
    rw [List.append_nil]
    exact hInv
  allowed earlier event later hSplit :=
    absurd hSplit.symm
      (List.append_ne_nil_of_right_ne_nil _
        (List.cons_ne_nil _ _))

/- A step with one event is in the books. -/
theorem Kept.seen
    (hInv : Inv (events ++ [event]) system)
    (hAllowed : Allowed events event) :
    Kept events (system, [event]) where
  inv := hInv
  allowed earlier other later hSplit := by
    rcases List.singleton_eq_append_iff.mp hSplit with
      ⟨rfl, hRest⟩ | ⟨-, hRest⟩
    · cases hRest
      rw [List.append_nil]
      exact hAllowed
    · cases hRest

theorem Kept.quiet
    (hInv : Inv events system)
    (hQuiet : Quiet event)
    (hAllowed : Allowed events event) :
    Kept events (system, [event]) :=
  Kept.seen (hInv.congr (hQuiet.sameBooks events)) hAllowed

/- Two parts of a step, one behind the other. -/
theorem Kept.append
    {more : List Event}
    {last : System}
    (hFirst : Kept events (system, [event]))
    (hRest : Kept (events ++ [event]) (last, more)) :
    Kept events (last, event :: more) where
  inv := by
    have hInv := hRest.inv
    rw [List.append_assoc] at hInv
    exact hInv
  allowed earlier other later hSplit := by
    cases earlier with
    | nil =>
        cases hSplit
        exact hFirst.allowed [] event [] rfl
    | cons first earlier =>
        rw [List.cons_append, List.cons.injEq] at hSplit
        have hAllowed := hRest.allowed earlier other later hSplit.2
        rw [List.append_assoc] at hAllowed
        rw [← hSplit.1]
        exact hAllowed

/- A job is taken when the session is ready for its number. -/
theorem submit_eq_ok
    {job : Option JobView}
    {around : Surroundings}
    (hOk : (submit job around control).1 = .ok) :
    ∃ view copy,
      job = some view ∧ jobOf view = some copy ∧
        control.phase = .ready ∧ control.stop = false ∧
        copy.sequence = control.completed ∧
        (submit job around control).2 =
          { control with
            pending := copy
            hasPending := true
            phase := .running } := by
  rw [submit] at hOk ⊢
  cases hJob : job.bind jobOf with
  | none =>
      rw [hJob] at hOk
      cases hOk
  | some copy =>
      rw [hJob] at hOk
      rcases Option.bind_eq_some_iff.mp hJob with
        ⟨view, hView, hCopy⟩
      dsimp only at hOk ⊢
      split_ifs at hOk ⊢ with hBusy hSequence hCopies hNull hState
      · cases hPlace : around.place <;>
          (rw [hPlace] at hOk; cases hOk)
      · rw [not_or, not_not, Bool.not_eq_true] at hBusy
        cases hPlace : around.place with
        | throws =>
            rw [hPlace] at hOk
            cases hOk
        | unusable =>
            rw [hPlace] at hOk
            cases hOk
        | usable =>
            exact
              ⟨view, copy, hView, hCopy, hBusy.1, hBusy.2,
                not_not.mp hSequence, rfl⟩

/- A refused job changes nothing. -/
theorem submit_refused
    {job : Option JobView}
    {around : Surroundings}
    (hNot : (submit job around control).1 ≠ .ok) :
    (submit job around control).2 = control := by
  rw [submit] at hNot ⊢
  cases hJob : job.bind jobOf with
  | none => rfl
  | some copy =>
      rw [hJob] at hNot
      dsimp only at hNot ⊢
      split_ifs at hNot ⊢
      · rfl
      · rfl
      · rfl
      · rfl
      · cases around.place <;> rfl
      · cases hPlace : around.place with
        | throws => rfl
        | unusable => rfl
        | usable =>
            rw [hPlace] at hNot
            exact absurd rfl hNot

theorem allowed_answered
    (events : List Event)
    {call : Call}
    {result : BeamResult}
    (hNot : result ≠ .ok) :
    Allowed events (.answered call result) := by
  cases result with
  | ok => exact absurd rfl hNot
  | _ => cases call <;> trivial

/- A refused call is in no book. -/
theorem quiet_answered
    {call : Call}
    {result : BeamResult}
    (hNot : result ≠ .ok) :
    Quiet (.answered call result) where
  submitted := by
    unfold submittedBy
    split
    case h_1 hEvent =>
      cases hEvent
      exact absurd rfl hNot
    case h_2 => rfl
  delivered := rfl
  completed := rfl
  cancelled hSame := by
    cases hSame
    exact hNot rfl
  finished hSame := nomatch hSame

----------------
-- One Call
----------------

/- A session that finishes is over. -/
theorem Control.finish_over
    (code : BeamResult)
    (message : String)
    (control : Control) :
    (control.finish code message).phase = .stopped ∨
      (control.finish code message).phase = .error := by
  by_cases hFailed : (control.finish code message).result = .failed
  · exact Or.inr (if_pos hFailed)
  · exact Or.inl (if_neg hFailed)

/- A finish of the controller, when no job is running. -/
theorem Inv.notStarted
    (args : List String)
    (hInv : Inv events system)
    (hPhase : system.control.phase ≠ .running) :
    Inv events
      { system with
        control := notStarted system.control
        args := args } := by
  have hResult :
      (Native.notStarted system.control).result ≠ .ok := by
    rw [Native.notStarted, Control.finish]
    dsimp only
    split_ifs
    · exact fun hSame => nomatch hSame
    · exact fun hSame => nomatch hSame
  have hEnd :
      (Native.notStarted system.control).phase = .stopped ∨
        (Native.notStarted system.control).phase = .error :=
    Control.finish_over .failed _ system.control
  refine
    ⟨?_, hInv.sequences, hInv.completed, hInv.stop, hInv.ended⟩
  cases hInv.situation with
  | settled hEngine hAbsent hCreated hPending hOld hOldResult
      hAll hDone =>
      refine
        Situation.settled hEngine ?_ ?_ hPending ?_
          (fun _ => hResult) hAll hDone
      · intro _
        constructor
        · intro hSame
          rcases hEnd with hStopped | hError
          · exact nomatch hStopped.symm.trans hSame
          · exact nomatch hError.symm.trans hSame
        · intro hSame
          rcases hEnd with hStopped | hError
          · exact nomatch hStopped.symm.trans hSame
          · exact nomatch hError.symm.trans hSame
      · intro hSame
        rcases hEnd with hStopped | hError
        · exact nomatch hStopped.symm.trans hSame
        · exact nomatch hError.symm.trans hSame
      · intro hSame
        rcases hEnd with hStopped | hError
        · exact nomatch hStopped.symm.trans hSame
        · exact nomatch hError.symm.trans hSame
  | offered hEngine hPending hRunning =>
      exact absurd hRunning hPhase
  | working job hEngine hPending hRunning =>
      exact absurd hRunning hPhase
  | finished hEngine hOver hAll =>
      exact Situation.finished hEngine hEnd hAll

/- The engine starts on a record that was only created. -/
theorem Inv.started
    (args : List String)
    (hInv : Inv events system)
    (hCreated : system.control.phase = .created) :
    Inv events
      { system with
        control := { system.control with phase := .preparing }
        args := args
        engine := .idle } := by
  cases hInv.situation with
  | settled hEngine hAbsent hOld hPending hPhase hResult hAll
      hDone =>
      have hNone := hOld hCreated
      refine
        ⟨Situation.settled (Or.inr (Or.inl rfl))
          (fun h => nomatch h) (fun h => nomatch h) hPending
          (fun h => nomatch h)
          (fun h => h.elim (fun h => nomatch h) fun h => nomatch h)
          hAll hDone,
          hInv.sequences, hInv.completed, hInv.stop, ?_⟩
      rw [hInv.ended, hNone]
      exact
        iff_of_false (fun h => nomatch h) fun h => nomatch h
  | offered hEngine hPending hRunning =>
      rw [hCreated] at hRunning
      cases hRunning
  | working job hEngine hPending hRunning =>
      rw [hCreated] at hRunning
      cases hRunning
  | finished hEngine hOver =>
      rw [hCreated] at hOver
      rcases hOver with hSame | hSame
      · cases hSame
      · cases hSame

/- Preparing keeps the books, unless memory runs out under a job. -/
theorem Inv.prepare
    (request : Prepare)
    (hInv : Inv events system)
    (hSteady :
      copyArguments request = .error .exhausted →
      system.control.phase ≠ .running) :
    Inv events (Native.prepare request system).2 := by
  rw [Native.prepare]
  cases hCopy : copyArguments request with
  | error error =>
      cases error with
      | invalidArgument => exact hInv
      | exhausted =>
          exact hInv.notStarted system.args (hSteady hCopy)
  | ok args =>
      dsimp only
      split_ifs with hPhase hStarts
      · exact hInv
      · exact hInv.started args (not_not.mp hPhase)
      · have hCreated := not_not.mp hPhase
        have hNew :=
          hInv.notStarted args (by rw [hCreated]; decide)
        exact hNew

/- An offered job joins the books as submitted. -/
theorem Inv.offers
    {view : JobView}
    {copy : Job}
    (around : Surroundings)
    (hInv : Inv events system)
    (hCopy : jobOf view = some copy)
    (hPhase : system.control.phase = .ready)
    (hStop : system.control.stop = false)
    (hSequence : copy.sequence = system.control.completed) :
    Kept events
      ({ system with
          control :=
            { system.control with
              pending := copy
              hasPending := true
              phase := .running } },
        [.answered (.submit (some view) around) .ok]) := by
  have hBy :
      submittedBy (.answered (.submit (some view) around) .ok) =
        some copy :=
    hCopy
  have hNotCancel :
      Event.answered (.submit (some view) around) .ok ≠
        .answered .cancel .ok :=
    fun hSame => nomatch hSame
  have hNotFinish :
      Event.answered (.submit (some view) around) .ok ≠
        .finished :=
    fun hSame => nomatch hSame
  cases hInv.situation with
  | settled hEngine hAbsent hCreated hPending hOld hResult hAll
      hDone =>
      apply Kept.seen
      · refine ⟨?_, ?_, ?_, ?_, ?_⟩
        · refine
            Situation.offered ?_ rfl rfl hSequence ?_ ?_
          · rcases hEngine with
              hNone | hIdle | hWaiting | ⟨-, hSet⟩
            · exact absurd hPhase (hAbsent hNone).2
            · exact Or.inl hIdle
            · exact Or.inr (Or.inl hWaiting)
            · rw [hStop] at hSet
              cases hSet
          · rw [submitted_snoc, delivered_snoc, hBy, hAll]
            exact congrArg (· ++ [copy]) (List.append_nil _).symm
          · rw [completions_snoc, delivered_snoc, hDone]
            exact
              (congrArg List.length (List.append_nil _)).symm
        · rw [submitted_snoc, hBy, Option.toList_some,
            List.map_append, List.length_append,
            List.length_singleton, List.range_succ,
            List.map_append, hInv.sequences, List.map_singleton,
            List.map_singleton, hSequence, hInv.completed, hDone,
            hAll]
        · rw [completions_snoc]
          exact hInv.completed
        · exact (mem_snoc_of_ne hNotCancel).trans hInv.stop
        · exact (mem_snoc_of_ne hNotFinish).trans hInv.ended
      · refine ⟨hAll, fun hCancelled => ?_⟩
        rw [hInv.stop, hStop] at hCancelled
        cases hCancelled
  | offered hEngine hPending hRunning =>
      rw [hPhase] at hRunning
      cases hRunning
  | working job hEngine hPending hRunning =>
      rw [hPhase] at hRunning
      cases hRunning
  | finished hEngine hOver =>
      rw [hPhase] at hOver
      rcases hOver with hSame | hSame
      · cases hSame
      · cases hSame

/- Cancelling asks the engine to stop. -/
theorem Inv.cancelled
    (hInv : Inv events system) :
    Kept events
      ({ system with
          control := { system.control with stop := true } },
        [.answered .cancel .ok]) := by
  have hSubmitted :
      submitted (events ++ [.answered .cancel .ok]) =
        submitted events :=
    (submitted_snoc events _).trans (List.append_nil _)
  have hDelivered :
      delivered (events ++ [.answered .cancel .ok]) =
        delivered events :=
    (delivered_snoc events _).trans (List.append_nil _)
  have hCompletions :
      completions (events ++ [.answered .cancel .ok]) =
        completions events :=
    completions_snoc events _
  have hNotFinish :
      Event.answered .cancel .ok ≠ .finished :=
    fun hSame => nomatch hSame
  apply Kept.seen
  · refine ⟨?_, ?_, ?_, ?_, ?_⟩
    · cases hInv.situation with
      | settled hEngine hAbsent hCreated hPending hPhase hResult
          hAll hDone =>
          refine
            Situation.settled ?_ hAbsent hCreated hPending hPhase
              hResult ?_ ?_
          · rcases hEngine with hNone | hIdle | hWaiting | hLeft
            · exact Or.inl hNone
            · exact Or.inr (Or.inl hIdle)
            · exact Or.inr (Or.inr (Or.inl hWaiting))
            · exact Or.inr (Or.inr (Or.inr ⟨hLeft.1, rfl⟩))
          · rw [hSubmitted, hDelivered]
            exact hAll
          · rw [hCompletions, hDelivered]
            exact hDone
      | offered hEngine hPending hPhase hSequence hAll hDone =>
          refine
            Situation.offered ?_ hPending hPhase hSequence ?_ ?_
          · rcases hEngine with hIdle | hWaiting | hLeft
            · exact Or.inl hIdle
            · exact Or.inr (Or.inl hWaiting)
            · exact Or.inr (Or.inr ⟨hLeft.1, rfl⟩)
          · rw [hSubmitted, hDelivered]
            exact hAll
          · rw [hCompletions, hDelivered]
            exact hDone
      | working job hEngine hPending hPhase hSequence hAll
          hDone =>
          refine
            Situation.working job hEngine hPending hPhase
              hSequence ?_ ?_
          · rw [hSubmitted, hDelivered]
            exact hAll
          · rw [hCompletions, hDelivered]
            exact hDone
      | finished hEngine hPhase hAll =>
          refine Situation.finished hEngine hPhase ?_
          rw [hSubmitted, hDelivered]
          exact hAll
    · rw [hSubmitted]
      exact hInv.sequences
    · rw [hCompletions]
      exact hInv.completed
    · exact
        iff_of_true
          (List.mem_append_right _ (List.mem_singleton_self _))
          rfl
    · exact (mem_snoc_of_ne hNotFinish).trans hInv.ended
  · trivial

/- A wait that is over and answers OK: the engine has ended, or
all submitted jobs are complete. -/
theorem Inv.allowed_wait
    (timeoutMs : UInt64)
    (hInv : Inv events system)
    (hOver : waitOver system.control = true) :
    Allowed events
      (.answered (.wait timeoutMs) (waitResult system.control)) := by
  by_cases hOk : waitResult system.control = .ok
  · rw [hOk]
    rw [waitResult] at hOk
    split_ifs at hOk with hStop
    refine ⟨fun hCancelled => hStop (hInv.stop.mp hCancelled), ?_⟩
    intro hNot
    cases hInv.situation with
    | settled hEngine hAbsent hCreated hPending hPhase hResult
        hAll hDone =>
        rw [hAll]
        exact hDone
    | offered hEngine hPending hPhase =>
        rw [waitOver, hPhase] at hOver
        cases hOver
    | working job hEngine hPending hPhase =>
        rw [waitOver, hPhase] at hOver
        cases hOver
    | finished hEngine => exact absurd (hInv.ended.mpr hEngine) hNot
  · exact allowed_answered events hOk

theorem quiet_wait
    (timeoutMs : UInt64)
    (result : BeamResult) :
    Quiet (.answered (.wait timeoutMs) result) where
  submitted := rfl
  delivered := rfl
  completed := rfl
  cancelled hSame := nomatch hSame
  finished hSame := nomatch hSame

theorem Inv.controller
    (controller : Controller)
    (hInv : Inv events system) :
    Inv events { system with controller := controller } :=
  hInv.sameRecord ⟨rfl, rfl, rfl, rfl, rfl, rfl, rfl⟩

theorem quiet_prepare
    (request : Prepare)
    (result : BeamResult) :
    Quiet (.answered (.prepare request) result) where
  submitted := rfl
  delivered := rfl
  completed := rfl
  cancelled hSame := nomatch hSame
  finished hSame := nomatch hSame

theorem quiet_setHistory
    (api : Option HistoryApi)
    (result : BeamResult) :
    Quiet (.answered (.setHistory api) result) where
  submitted := rfl
  delivered := rfl
  completed := rfl
  cancelled hSame := nomatch hSame
  finished hSame := nomatch hSame

theorem quiet_status
    (view : Option StatusView)
    (result : BeamResult) :
    Quiet (.answered (.status view) result) where
  submitted := rfl
  delivered := rfl
  completed := rfl
  cancelled hSame := nomatch hSame
  finished hSame := nomatch hSame

theorem quiet_reported (status : Status) :
    Quiet (.reported status) where
  submitted := rfl
  delivered := rfl
  completed := rfl
  cancelled hSame := nomatch hSame
  finished hSame := nomatch hSame

theorem setHistory_sameRecord
    (api : Option HistoryApi)
    (system : System) :
    SameRecord system
      { system with
        control := (setHistory api system.control).2 } := by
  cases api with
  | none => exact ⟨rfl, rfl, rfl, rfl, rfl, rfl, rfl⟩
  | some history =>
      unfold setHistory
      dsimp only
      split_ifs
      · exact ⟨rfl, rfl, rfl, rfl, rfl, rfl, rfl⟩
      · exact ⟨rfl, rfl, rfl, rfl, rfl, rfl, rfl⟩
      · exact ⟨rfl, rfl, rfl, rfl, rfl, rfl, rfl⟩

/- Every call of the host keeps the books. -/
theorem Inv.answer
    (call : Call)
    (hInv : Inv events system)
    (hIdle : system.controller = .idle)
    (hSteady : Steady system (.call call)) :
    Kept events (Native.answer call system) := by
  cases call with
  | prepare request =>
      refine
        Kept.quiet
          (hInv.prepare request fun hCopy => hSteady hCopy hIdle)
          (quiet_prepare request _) ?_
      cases (Native.prepare request system).1 <;> trivial
  | setHistory api =>
      refine
        Kept.quiet
          (hInv.sameRecord (setHistory_sameRecord api system))
          (quiet_setHistory api _) ?_
      cases (setHistory api system.control).1 <;> trivial
  | submit job around =>
      by_cases hOk : (submit job around system.control).1 = .ok
      · rcases submit_eq_ok hOk with
          ⟨view, copy, rfl, hCopy, hPhase, hStop, hSequence,
            hControl⟩
        rw [Native.answer, hOk, hControl]
        exact
          hInv.offers around hCopy hPhase hStop hSequence
      · rw [Native.answer, submit_refused hOk]
        exact
          Kept.quiet hInv (quiet_answered hOk)
            (allowed_answered events hOk)
  | wait timeoutMs =>
      rw [Native.answer]
      split_ifs with hLarge hCreated hOver
      · exact Kept.quiet hInv (quiet_wait _ _) trivial
      · exact Kept.quiet hInv (quiet_wait _ _) trivial
      · exact
          Kept.quiet hInv (quiet_wait _ _)
            (hInv.allowed_wait timeoutMs hOver)
      · exact Kept.silent (hInv.controller _)
  | cancel => exact hInv.cancelled
  | status view =>
      rw [Native.answer]
      split_ifs
      · have hFirst :=
          Kept.quiet hInv
            (quiet_reported (statusOf system.control)) trivial
        exact
          hFirst.append
            (Kept.quiet hFirst.inv (quiet_status _ _) trivial)
      · exact Kept.quiet hInv (quiet_status _ _) trivial

/- A wait that looks again keeps the books. -/
theorem Inv.lookAgain
    (expired : Bool)
    (timeoutMs : UInt64)
    (hInv : Inv events system) :
    Kept events (Native.lookAgain expired timeoutMs system) := by
  unfold Native.lookAgain
  split_ifs with hOver
  · exact
      Kept.quiet (hInv.controller _) (quiet_wait _ _)
        (hInv.allowed_wait timeoutMs hOver)
  · exact
      Kept.quiet (hInv.controller _) (quiet_wait _ _) trivial
  · exact Kept.silent hInv

----------------
-- The Engine's Calls
----------------

theorem quiet_declined : Quiet .declined where
  submitted := rfl
  delivered := rfl
  completed := rfl
  cancelled hSame := nomatch hSame
  finished hSame := nomatch hSame

/- Only a prepared engine makes the record ready. -/
theorem Inv.entered
    (hInv : Inv events system)
    (hEngine : system.engine = .idle) :
    Inv events { system with control := system.control.enter } := by
  unfold Control.enter
  split_ifs with hPreparing
  · refine
      ⟨?_, hInv.sequences, hInv.completed, hInv.stop, hInv.ended⟩
    cases hInv.situation with
    | settled hOld hAbsent hCreated hPending hPhase hResult hAll
        hDone =>
        refine
          Situation.settled hOld ?_ (fun h => nomatch h) hPending
            (fun h => nomatch h)
            (fun h =>
              h.elim (fun h => nomatch h) fun h => nomatch h)
            hAll hDone
        intro hNone
        rw [hEngine] at hNone
        cases hNone
    | offered hOld hPending hRunning =>
        rw [hPreparing] at hRunning
        cases hRunning
    | working job hOld hPending hRunning =>
        rw [hPreparing] at hRunning
        cases hRunning
    | finished hOld =>
        rw [hEngine] at hOld
        cases hOld
  · exact hInv

/- An engine that does not hold a job and has not ended. -/
def Looking (engine : Engine) : Prop :=
  engine = .idle ∨ engine = .waiting

theorem not_looking_working
    (job : Job) :
    ¬ Looking (.working job) :=
  fun hLooking =>
    hLooking.elim (fun h => nomatch h) fun h => nomatch h

theorem not_looking_ended : ¬ Looking .ended :=
  fun hLooking =>
    hLooking.elim (fun h => nomatch h) fun h => nomatch h

/- A cancelled search declines whatever is offered. -/
theorem Inv.declined
    (hInv : Inv events system)
    (hLooking : Looking system.engine)
    (hStop : system.control.stop = true) :
    Inv events { system with engine := .leaving } := by
  refine
    ⟨?_, hInv.sequences, hInv.completed, hInv.stop, ?_⟩
  · cases hInv.situation with
    | settled hEngine hAbsent hCreated hPending hPhase hResult
        hAll hDone =>
        refine
          Situation.settled
            (Or.inr (Or.inr (Or.inr ⟨rfl, hStop⟩)))
            (fun h => nomatch h) ?_ hPending hPhase hResult hAll
            hDone
        intro hSame
        rw [hCreated hSame] at hLooking
        exact
          hLooking.elim (fun h => nomatch h) fun h => nomatch h
    | offered hEngine hPending hPhase hSequence hAll hDone =>
        exact
          Situation.offered (Or.inr (Or.inr ⟨rfl, hStop⟩))
            hPending hPhase hSequence hAll hDone
    | working job hEngine =>
        rw [hEngine] at hLooking
        exact absurd hLooking (not_looking_working job)
    | finished hEngine =>
        rw [hEngine] at hLooking
        exact absurd hLooking not_looking_ended
  · rw [hInv.ended]
    refine iff_of_false ?_ fun h => nomatch h
    intro hEnded
    rw [hEnded] at hLooking
    exact not_looking_ended hLooking

/- There is nothing to take: the engine waits. -/
theorem Inv.waits
    (hInv : Inv events system)
    (hLooking : Looking system.engine)
    (hPending : system.control.hasPending = false) :
    Inv events { system with engine := .waiting } := by
  refine
    ⟨?_, hInv.sequences, hInv.completed, hInv.stop, ?_⟩
  · cases hInv.situation with
    | settled hEngine hAbsent hCreated hNone hPhase hResult hAll
        hDone =>
        refine
          Situation.settled (Or.inr (Or.inr (Or.inl rfl)))
            (fun h => nomatch h) ?_ hNone hPhase hResult hAll
            hDone
        intro hSame
        rw [hCreated hSame] at hLooking
        exact
          hLooking.elim (fun h => nomatch h) fun h => nomatch h
    | offered hEngine hSome =>
        rw [hPending] at hSome
        cases hSome
    | working job hEngine =>
        rw [hEngine] at hLooking
        exact absurd hLooking (not_looking_working job)
    | finished hEngine =>
        rw [hEngine] at hLooking
        exact absurd hLooking not_looking_ended
  · rw [hInv.ended]
    refine iff_of_false ?_ fun h => nomatch h
    intro hEnded
    rw [hEnded] at hLooking
    exact not_looking_ended hLooking

/- The engine takes the job that was offered. -/
theorem Inv.taken
    (hInv : Inv events system)
    (hLooking : Looking system.engine)
    (hPending : system.control.hasPending = true) :
    Kept events
      ({ system with
          control := { system.control with hasPending := false }
          engine := .working system.control.pending },
        [.delivered system.control.pending]) := by
  have hNotCancel :
      Event.delivered system.control.pending ≠
        .answered .cancel .ok :=
    fun hSame => nomatch hSame
  have hNotFinish :
      Event.delivered system.control.pending ≠ .finished :=
    fun hSame => nomatch hSame
  apply Kept.seen
  · cases hInv.situation with
    | settled hEngine hAbsent hCreated hNone =>
        rw [hPending] at hNone
        cases hNone
    | offered hEngine hSome hPhase hSequence hAll hDone =>
        have hSubmitted :
            submitted
                (events ++
                  [.delivered system.control.pending]) =
              submitted events :=
          (submitted_snoc events _).trans (List.append_nil _)
        have hDelivered :
            delivered
                (events ++
                  [.delivered system.control.pending]) =
              delivered events ++ [system.control.pending] :=
          delivered_snoc events _
        have hCompletions :
            completions
                (events ++
                  [.delivered system.control.pending]) =
              completions events :=
          completions_snoc events _
        refine ⟨?_, ?_, ?_, ?_, ?_⟩
        · refine
            Situation.working system.control.pending rfl rfl
              hPhase hSequence ?_ ?_
          · rw [hSubmitted, hDelivered]
            exact hAll
          · rw [hCompletions, hDelivered, hDone,
              List.length_append, List.length_singleton]
        · rw [hSubmitted]
          exact hInv.sequences
        · rw [hCompletions]
          exact hInv.completed
        · exact (mem_snoc_of_ne hNotCancel).trans hInv.stop
        · refine (mem_snoc_of_ne hNotFinish).trans ?_
          refine
            hInv.ended.trans (iff_of_false ?_ fun h => nomatch h)
          intro hEnded
          rw [hEnded] at hLooking
          exact not_looking_ended hLooking
    | working job hEngine =>
        rw [hEngine] at hLooking
        exact absurd hLooking (not_looking_working job)
    | finished hEngine =>
        rw [hEngine] at hLooking
        exact absurd hLooking not_looking_ended
  · trivial

theorem Control.take_of_stop
    (hStop : control.stop = true) :
    control.take = some (none, control) := by
  unfold Control.take
  rw [if_pos (Bool.or_eq_true_iff.mpr (Or.inr hStop)),
    if_pos hStop]

theorem Control.take_of_pending
    (hStop : control.stop = false)
    (hPending : control.hasPending = true) :
    control.take =
      some
        (some control.pending,
          { control with hasPending := false }) := by
  unfold Control.take
  rw [if_pos (Bool.or_eq_true_iff.mpr (Or.inl hPending)),
    if_neg (Bool.not_eq_true _ ▸ hStop)]

theorem Control.take_of_none
    (hStop : control.stop = false)
    (hPending : control.hasPending = false) :
    control.take = none := by
  unfold Control.take
  exact if_neg (by rw [hStop, hPending]; exact Bool.false_ne_true)

/- The engine looks for a job and takes the one it finds. -/
theorem Inv.look
    (hInv : Inv events system)
    (hLooking : Looking system.engine) :
    Kept events (Native.look system) := by
  cases hStop : system.control.stop with
  | true =>
      rw [Native.look, Control.take_of_stop hStop]
      exact
        Kept.quiet (hInv.declined hLooking hStop) quiet_declined
          trivial
  | false =>
      cases hPending : system.control.hasPending with
      | true =>
          rw [Native.look, Control.take_of_pending hStop hPending]
          exact hInv.taken hLooking hPending
      | false =>
          rw [Native.look, Control.take_of_none hStop hPending]
          exact Kept.silent (hInv.waits hLooking hPending)

/- A job that is delivered is complete when the engine says
so. -/
theorem Inv.complete
    {job : Job}
    (hInv : Inv events system)
    (hEngine : system.engine = .working job) :
    Kept events (step .complete system) := by
  have hNotCancel :
      Event.completed job.sequence ≠ .answered .cancel .ok :=
    fun hSame => nomatch hSame
  have hNotFinish : Event.completed job.sequence ≠ .finished :=
    fun hSame => nomatch hSame
  cases hInv.situation with
  | settled hOld =>
      rw [hEngine] at hOld
      rcases hOld with hSame | hSame | hSame | ⟨hSame, -⟩
      · cases hSame
      · cases hSame
      · cases hSame
      · cases hSame
  | offered hOld =>
      rw [hEngine] at hOld
      rcases hOld with hSame | hSame | ⟨hSame, -⟩
      · cases hSame
      · cases hSame
      · cases hSame
  | finished hOld =>
      rw [hEngine] at hOld
      cases hOld
  | working held hHeld hPending hPhase hSequence hAll hDone =>
      rw [hEngine] at hHeld
      cases hHeld
      have hSubmitted :
          submitted (events ++ [.completed job.sequence]) =
            submitted events :=
        (submitted_snoc events _).trans (List.append_nil _)
      have hDelivered :
          delivered (events ++ [.completed job.sequence]) =
            delivered events :=
        (delivered_snoc events _).trans (List.append_nil _)
      have hCompletions :
          completions (events ++ [.completed job.sequence]) =
            completions events + 1 :=
        completions_snoc events _
      have hStep :
          step .complete system =
            ({ system with
                control :=
                  { system.control with
                    completed := system.control.completed + 1
                    phase := .ready }
                engine := .idle },
              [.completed job.sequence]) := by
        have hComplete :
            system.control.complete job.sequence =
              some
                { system.control with
                  completed := system.control.completed + 1
                  phase := .ready } := by
          unfold Control.complete
          exact
            if_neg
              (not_or.mpr
                ⟨not_not.mpr hSequence, not_not.mpr hPhase⟩)
        unfold step
        rw [hEngine]
        dsimp only
        rw [hComplete]
      rw [hStep]
      apply Kept.seen
      · refine ⟨?_, ?_, ?_, ?_, ?_⟩
        · refine
            Situation.settled (Or.inr (Or.inl rfl))
              (fun h => nomatch h) (fun h => nomatch h) hPending
              (fun h => nomatch h)
              (fun h =>
                h.elim (fun h => nomatch h) fun h => nomatch h)
              ?_ ?_
          · rw [hSubmitted, hDelivered]
            exact hAll
          · rw [hCompletions, hDelivered]
            exact hDone
        · rw [hSubmitted]
          exact hInv.sequences
        · rw [hCompletions, UInt64.ofNat_add, ← hInv.completed]
          rfl
        · exact (mem_snoc_of_ne hNotCancel).trans hInv.stop
        · refine (mem_snoc_of_ne hNotFinish).trans ?_
          refine
            hInv.ended.trans (iff_of_false ?_ fun h => nomatch h)
          intro hEnded
          rw [hEngine] at hEnded
          cases hEnded
      · trivial

/- However the runner ends, the record ends with it; a job that
was offered stays there. -/
theorem Inv.finish
    (ending : Ending)
    (hInv : Inv events system) :
    Kept events
      ({ system with
          control :=
            system.control.finish ending.code ending.message
          engine := .ended },
        [.finished]) := by
  have hNotCancel :
      Event.finished ≠ .answered .cancel .ok :=
    fun hSame => nomatch hSame
  have hSubmitted :
      submitted (events ++ [.finished]) = submitted events :=
    (submitted_snoc events _).trans (List.append_nil _)
  have hDelivered :
      delivered (events ++ [.finished]) = delivered events :=
    (delivered_snoc events _).trans (List.append_nil _)
  have hCompletions :
      completions (events ++ [.finished]) = completions events :=
    completions_snoc events _
  have hEnd :
      (system.control.finish ending.code ending.message).phase =
          .stopped ∨
        (system.control.finish ending.code ending.message).phase =
          .error :=
    Control.finish_over ending.code ending.message system.control
  apply Kept.seen
  · refine ⟨Situation.finished rfl hEnd ?_, ?_, ?_, ?_, ?_⟩
    · rw [hSubmitted, hDelivered]
      cases hInv.situation with
      | settled _ _ _ _ _ _ hAll => exact Or.inl hAll
      | offered _ hPending _ _ hAll =>
          exact Or.inr ⟨hPending, hAll⟩
      | working _ _ _ _ _ hAll => exact Or.inl hAll
      | finished _ _ hAll => exact hAll
    · rw [hSubmitted]
      exact hInv.sequences
    · rw [hCompletions]
      exact hInv.completed
    · exact (mem_snoc_of_ne hNotCancel).trans hInv.stop
    · exact
        iff_of_true
          (List.mem_append_right _ (List.mem_singleton_self _))
          rfl
  · trivial

----------------
-- A Step, A Run
----------------

/- Every step of the host or the engine keeps the books. -/
theorem Inv.step
    (action : Action)
    (hInv : Inv events system)
    (hSteady : Steady system action) :
    Kept events (Native.step action system) := by
  cases action with
  | call call =>
      unfold Native.step
      cases hController : system.controller with
      | idle => exact hInv.answer call hController hSteady
      | waiting timeoutMs => exact Kept.silent hInv
  | wake =>
      unfold Native.step
      cases system.controller with
      | idle => exact Kept.silent hInv
      | waiting timeoutMs => exact hInv.lookAgain false timeoutMs
  | expire =>
      unfold Native.step
      cases system.controller with
      | idle => exact Kept.silent hInv
      | waiting timeoutMs => exact hInv.lookAgain true timeoutMs
  | next =>
      unfold Native.step
      cases hEngine : system.engine with
      | idle =>
          exact (hInv.entered hEngine).look (Or.inl hEngine)
      | waiting => exact hInv.look (Or.inr hEngine)
      | absent => exact Kept.silent hInv
      | working job => exact Kept.silent hInv
      | leaving => exact Kept.silent hInv
      | ended => exact Kept.silent hInv
  | complete =>
      cases hEngine : system.engine with
      | working job => exact hInv.complete hEngine
      | idle =>
          unfold Native.step
          rw [hEngine]
          exact Kept.silent hInv
      | waiting =>
          unfold Native.step
          rw [hEngine]
          exact Kept.silent hInv
      | absent =>
          unfold Native.step
          rw [hEngine]
          exact Kept.silent hInv
      | leaving =>
          unfold Native.step
          rw [hEngine]
          exact Kept.silent hInv
      | ended =>
          unfold Native.step
          rw [hEngine]
          exact Kept.silent hInv
  | finish ending =>
      unfold Native.step
      cases system.engine with
      | idle => exact hInv.finish ending
      | working job => exact hInv.finish ending
      | leaving => exact hInv.finish ending
      | absent => exact Kept.silent hInv
      | waiting => exact Kept.silent hInv
      | ended => exact Kept.silent hInv

/- The events of a run come from its first step or from the
rest. -/
theorem Inv.run
    (actions : List Action)
    (hInv : Inv events system)
    (hSteadily : Steadily actions system) :
    Kept events (Native.run actions system) := by
  induction actions generalizing events system with
  | nil => exact Kept.silent hInv
  | cons action actions ih =>
      have hFirst := hInv.step action hSteadily.1
      have hRest := ih hFirst.inv hSteadily.2
      constructor
      · have hLast := hRest.inv
        rw [List.append_assoc] at hLast
        exact hLast
      · intro earlier event later hSplit
        rcases List.append_eq_append_iff.mp hSplit with
          ⟨between, hEarlier, hMore⟩ | ⟨between, hStepped, hMore⟩
        · have hAllowed :=
            hRest.allowed between event later hMore
          rw [List.append_assoc, ← hEarlier] at hAllowed
          exact hAllowed
        · cases between with
          | nil =>
              rw [List.append_nil] at hStepped
              have hAllowed :=
                hRest.allowed [] event later hMore.symm
              rw [List.append_nil, hStepped] at hAllowed
              exact hAllowed
          | cons first between =>
              rw [List.cons_append, List.cons.injEq] at hMore
              rw [← hMore.1] at hStepped
              exact hFirst.allowed earlier event between hStepped

theorem range_succ_ofNat
    (count : Nat) :
    ((List.range (count + 1)).map UInt64.ofNat) =
      (List.range count).map UInt64.ofNat ++
        [UInt64.ofNat count] := by
  rw [List.range_succ, List.map_append, List.map_singleton]

/- The jobs delivered are numbered from zero. -/
theorem Inv.delivered_sequences
    (hInv : Inv events system) :
    (delivered events).map Job.sequence =
      (List.range (delivered events).length).map UInt64.ofNat := by
  have hOrder :
      submitted events = delivered events ∨
        ∃ job, submitted events = delivered events ++ [job] := by
    cases hInv.situation with
    | settled _ _ _ _ _ _ hAll => exact Or.inl hAll
    | offered _ _ _ _ hAll => exact Or.inr ⟨_, hAll⟩
    | working _ _ _ _ _ hAll => exact Or.inl hAll
    | finished _ _ hAll =>
        exact hAll.imp_right fun hLeft => ⟨_, hLeft.2⟩
  have hSequences := hInv.sequences
  rcases hOrder with hAll | ⟨job, hAll⟩
  · rw [hAll] at hSequences
    exact hSequences
  · rw [hAll, List.map_append, List.length_append,
      List.length_singleton, range_succ_ofNat] at hSequences
    exact
      (List.append_inj hSequences
        (by rw [List.length_map, List.length_map,
          List.length_range])).1

/- What is on offer is taken at the next look. -/
theorem Inv.next_pending
    (hInv : Inv events system)
    (hPending : system.control.hasPending = true)
    (hCancelled : ¬ Cancelled events)
    (hFinished : ¬ Finished events) :
    (Native.step .next system).2 =
      [.delivered system.control.pending] := by
  have hStop : system.control.stop = false :=
    Bool.not_eq_true _ ▸ fun hSet => hCancelled (hInv.stop.mpr hSet)
  cases hInv.situation with
  | settled _ _ _ hNone =>
      rw [hPending] at hNone
      cases hNone
  | offered hEngine _ hPhase =>
      have hEnter : system.control.enter = system.control := by
        unfold Control.enter
        exact if_neg (by rw [hPhase]; exact fun h => nomatch h)
      unfold Native.step
      rcases hEngine with hIdle | hWaiting | ⟨-, hSet⟩
      · rw [hIdle]
        dsimp only
        rw [hEnter]
        unfold Native.look
        rw [Control.take_of_pending hStop hPending]
      · rw [hWaiting]
        dsimp only
        unfold Native.look
        rw [Control.take_of_pending hStop hPending]
      · rw [hStop] at hSet
        cases hSet
  | working _ _ hNone =>
      rw [hPending] at hNone
      cases hNone
  | finished hEngine => exact absurd (hInv.ended.mpr hEngine) hFinished

/- So every job is delivered once. -/
theorem Inv.once
    (hInv : Inv events system)
    (hAllowed :
      ∀ earlier event later,
        events = earlier ++ event :: later →
        Allowed earlier event) :
    Once events system where
  sequences := hInv.delivered_sequences
  order := by
    cases hInv.situation with
    | settled _ _ _ _ _ _ hAll => exact Or.inl hAll
    | offered _ hPending _ _ hAll =>
        exact Or.inr ⟨hPending, hAll⟩
    | working _ _ _ _ _ hAll => exact Or.inl hAll
    | finished _ _ hAll => exact hAll
  taken := hInv.next_pending
  pending hPending := by
    cases hInv.situation with
    | settled _ _ _ hNone =>
        rw [hPending] at hNone
        cases hNone
    | offered _ _ hPhase => exact Or.inl hPhase
    | working _ _ hNone =>
        rw [hPending] at hNone
        cases hNone
    | finished _ hPhase => exact Or.inr hPhase
  completed := hInv.completed
  allowed := hAllowed

----------------
-- Every Run
----------------

theorem run_once
    (actions : List Action)
    (hSteadily : Steadily actions System.new) :
    Once (run actions System.new).2 (run actions System.new).1 := by
  have hKept := inv_new.run actions hSteadily
  exact hKept.inv.once hKept.allowed

/- One argument, and a thread that starts. -/
def smallPrepare : Prepare where
  argc := 1
  argv := some fun _ => some "beam"
  reserves := true
  copies _ := true
  threadStarts := true

/- There is no memory for the arguments. -/
def exhaustedPrepare : Prepare :=
  { smallPrepare with reserves := false }

/- A job with one byte of state. -/
def firstJob : JobView where
  abiVersion := 1
  structSize := 48
  sequence := 0
  state := some fun _ => 7
  stateLen := 1
  outputDirectory := some fun _ => 111
  outputDirectoryLen := 1

/- A directory that is there, and room for the copies. -/
def calmSurroundings : Surroundings :=
  ⟨true, .usable, true⟩

/- One job from submit to completion, and a cancelled worker. -/
def oneJob : List Action :=
  [.call (.prepare smallPrepare), .next,
    .call (.submit (some firstJob) calmSurroundings), .next,
    .call (.wait 5), .complete, .wake, .next, .call .cancel,
    .next, .finish (.cancelled "cancelled"),
    .call (.wait 5)]

/- The arguments run out of memory while the job runs. -/
def preparedAgain : List Action :=
  [.call (.prepare smallPrepare), .next,
    .call (.submit (some firstJob) calmSurroundings), .next,
    .call (.prepare exhaustedPrepare), .complete]

theorem run_once_oneJob :
    Steadily oneJob System.new ∧
      Once (run oneJob System.new).2 (run oneJob System.new).1 := by
  have hSteadily : Steadily oneJob System.new :=
    ⟨(fun h => nomatch h), trivial, trivial, trivial, trivial,
      trivial, trivial, trivial, trivial, trivial, trivial,
      trivial, trivial⟩
  exact ⟨hSteadily, run_once oneJob hSteadily⟩

theorem preparedAgain_threw :
    ¬ Once (run preparedAgain System.new).2
        (run preparedAgain System.new).1 := by
  intro hOnce
  exact
    hOnce.allowed
      [.answered (.prepare smallPrepare) .ok,
        .answered (.submit (some firstJob) calmSurroundings) .ok,
        .delivered ⟨0, [7], [111]⟩,
        .answered (.prepare exhaustedPrepare) .failed]
      (.threw 0) [] rfl

end Native

end BeamSearch
