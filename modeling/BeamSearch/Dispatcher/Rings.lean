import BeamSearch.Lib.Fifo
import BeamSearch.Dispatcher.Frames

/-
  The books of the rings.

  The parents of the launches are the frontier up to its cursor,
  each once and in order. The rings that are launched and not
  yet passed form a queue: Stream 3 takes them in the order of
  their launches, and no ring is launched again before its pass.

  Main declarations:
    * `LaunchBooks`, `RingBooks`
    * `LaunchBooks.launchRing`, `RingBooks.launchRing`
    * `LaunchBooks.launches_eq`
-/

namespace BeamSearch

namespace Dispatcher

variable {rank : Rank} {ring : Nat}

----------------
-- Launched Parents
----------------

/- The parents of one launch of a slot. -/
def RingSlotJob.parents (job : RingSlotJob) : List Nat :=
  List.range' job.parentBase job.count

/- The parents of all launches, in their order. -/
def Rank.launchedParents (rank : Rank) : List Nat :=
  rank.trace.ringLaunches.flatten.flatMap RingSlotJob.parents

/- The ring events, read as those of a queue. -/
def RingEvent.queued : RingEvent → Fifo.Event Nat
  | .launched ring => .enter ring
  | .stream3Passed ring => .leave ring

/- The events of the rings, as those of one queue. -/
def Rank.ringHistory (rank : Rank) : List (Fifo.Event Nat) :=
  rank.trace.ringEvents.map RingEvent.queued

/- A job of a ring's slot, as the launch fills it in. -/
def RingSlotJob.Fits
    (config : DispatchConfig)
    (job : RingSlotJob) : Prop :=
  job.count ≤ config.bMicro ∧
    job.lane = job.slot % config.inferenceParallelism

/- What one launch takes from the frontier. -/
structure Launch
    (config : DispatchConfig)
    (frontierSize : Nat)
    (slots : List Nat)
    (cursor : Nat)
    (launch : List RingSlotJob × Nat) : Prop where
  taken : launch.1.map RingSlotJob.slot = slots
  jobs : ∀ job ∈ launch.1, job.Fits config
  upTo :
    launch.2 =
      min frontierSize (cursor + slots.length * config.bMicro)
  parents :
    launch.1.flatMap RingSlotJob.parents =
      List.range' cursor (launch.2 - cursor)

/-
  A launch covers its parents without a gap; the induction is
  on the slots.
-/
theorem ringSlotJobs_spec
    (config : DispatchConfig)
    {frontierSize cursor : Nat}
    (slots : List Nat)
    (hCursor : cursor ≤ frontierSize) :
    Launch config frontierSize slots cursor
      (ringSlotJobs config frontierSize slots cursor) := by
  induction slots generalizing cursor with
  | nil =>
      refine ⟨rfl, nofun, ?_, ?_⟩
      · simp [ringSlotJobs, hCursor]
      · simp [ringSlotJobs]
  | cons slot slots ih =>
      rw [ringSlotJobs]
      dsimp only
      by_cases hMore : cursor < frontierSize
      · rw [if_pos hMore]
        have hCount :
            cursor + min config.bMicro (frontierSize - cursor) ≤
              frontierSize := by
          omega
        have hRest := ih hCount
        constructor
        case taken =>
          rw [List.map_cons, hRest.taken]
        case jobs =>
          intro job hMem
          rcases List.mem_cons.mp hMem with rfl | hTail
          · exact ⟨min_le_left _ _, rfl⟩
          · exact hRest.jobs job hTail
        case upTo =>
          rw [hRest.upTo, List.length_cons, Nat.succ_mul]
          omega
        case parents =>
          have hEnd :
              cursor +
                  min config.bMicro (frontierSize - cursor) ≤
                (ringSlotJobs config frontierSize slots
                  (cursor +
                    min config.bMicro
                      (frontierSize - cursor))).2 := by
            rw [hRest.upTo]
            omega
          rw [List.flatMap_cons, hRest.parents,
            RingSlotJob.parents, List.range'_append_1]
          congr 1
          dsimp only
          omega
      · rw [if_neg hMore]
        have hRest := ih hCursor
        constructor
        case taken =>
          rw [List.map_cons, hRest.taken]
        case jobs =>
          intro job hMem
          rcases List.mem_cons.mp hMem with rfl | hTail
          · exact ⟨Nat.zero_le _, rfl⟩
          · exact hRest.jobs job hTail
        case upTo =>
          rw [hRest.upTo, List.length_cons, Nat.succ_mul]
          omega
        case parents =>
          rw [List.flatMap_cons, hRest.parents]
          rfl

----------------
-- The Books Of The Launches
----------------

/-
  However a run ends, it has launched the parents before the
  cursor, and no ring without a parent.
-/
structure LaunchBooks
    (config : DispatchConfig)
    (frontierSize : Nat)
    (rank : Rank) : Prop where
  parents :
    rank.launchedParents = List.range rank.rings.frontierCursor
  cursor :
    rank.rings.frontierCursor =
      min frontierSize
        (rank.trace.ringLaunches.length *
          config.parentsPerStream3Round)
  needed :
    ∀ n, rank.trace.ringLaunches.length = n + 1 →
      n * config.parentsPerStream3Round < frontierSize
  jobs :
    ∀ jobs ∈ rank.trace.ringLaunches,
      jobs.map RingSlotJob.slot =
          List.range config.ringSlotCount ∧
        ∀ job ∈ jobs, job.Fits config
  entered :
    (Fifo.entered rank.ringHistory).length =
      rank.trace.ringLaunches.length

variable {config : DispatchConfig}
variable {frontierSize : Nat}

/- The books read three fields. -/
theorem LaunchBooks.congr
    {a b : Rank}
    (hBooks : LaunchBooks config frontierSize a)
    (hCursor :
      b.rings.frontierCursor = a.rings.frontierCursor)
    (hLaunches : b.trace.ringLaunches = a.trace.ringLaunches)
    (hEvents : b.trace.ringEvents = a.trace.ringEvents) :
    LaunchBooks config frontierSize b := by
  constructor
  case parents =>
    rw [Rank.launchedParents, hLaunches, hCursor]
    exact hBooks.parents
  case cursor =>
    rw [hLaunches, hCursor]
    exact hBooks.cursor
  case needed =>
    rw [hLaunches]
    exact hBooks.needed
  case jobs =>
    rw [hLaunches]
    exact hBooks.jobs
  case entered =>
    rw [Rank.ringHistory, hEvents, hLaunches]
    exact hBooks.entered

/- Two ranges that meet. -/
theorem range_append_range'
    {m n : Nat}
    (hLe : m ≤ n) :
    List.range m ++ List.range' m (n - m) = List.range n := by
  have hAppend := @List.range'_append_1 0 m (n - m)
  rw [Nat.zero_add, Nat.add_sub_cancel' hLe] at hAppend
  rw [List.range_eq_range', List.range_eq_range', hAppend]

/- One launch more: the next parents of the frontier. -/
theorem LaunchBooks.launchRing
    (hBooks : LaunchBooks config frontierSize rank)
    (hMore : rank.rings.frontierCursor < frontierSize) :
    LaunchBooks config frontierSize
      (rank.launchRing config frontierSize ring) := by
  have hLaunch :=
    ringSlotJobs_spec config (List.range config.ringSlotCount)
      hMore.le
  have hCursor := hLaunch.upTo
  have hBefore := hBooks.cursor
  rw [List.length_range, ← DispatchConfig.parentsPerStream3Round]
    at hCursor
  constructor
  case parents =>
    have hParents := hBooks.parents
    rw [Rank.launchedParents] at hParents ⊢
    dsimp only [Rank.launchRing]
    rw [List.flatten_append, List.flatMap_append, hParents,
      List.flatten_singleton, hLaunch.parents]
    exact range_append_range' (by omega)
  case cursor =>
    dsimp only [Rank.launchRing]
    rw [hCursor, List.length_append, List.length_singleton,
      Nat.succ_mul]
    omega
  case needed =>
    intro n hLength
    dsimp only [Rank.launchRing] at hLength
    rw [List.length_append, List.length_singleton] at hLength
    have hCount : rank.trace.ringLaunches.length = n := by omega
    rw [hCount] at hBefore
    omega
  case jobs =>
    intro jobs hMem
    dsimp only [Rank.launchRing] at hMem
    rcases List.mem_append.mp hMem with hOld | hNew
    · exact hBooks.jobs jobs hOld
    · rw [List.mem_singleton.mp hNew]
      exact ⟨hLaunch.taken, hLaunch.jobs⟩
  case entered =>
    have hEntered := hBooks.entered
    rw [Rank.ringHistory] at hEntered ⊢
    dsimp only [Rank.launchRing]
    rw [List.map_append, Fifo.entered_append, List.length_append,
      hEntered, List.length_append]
    rfl

/- A ring that is freed was launched. -/
theorem LaunchBooks.freeRing
    (hBooks : LaunchBooks config frontierSize rank) :
    LaunchBooks config frontierSize (rank.freeRing ring) := by
  refine
    ⟨hBooks.parents, hBooks.cursor, hBooks.needed, hBooks.jobs,
      ?_⟩
  have hEntered := hBooks.entered
  rw [Rank.ringHistory] at hEntered ⊢
  dsimp only [Rank.freeRing]
  rw [List.map_append, Fifo.entered_append, List.length_append,
    hEntered]
  rfl

/- A frontier that is used up took as many rings as it needs. -/
theorem LaunchBooks.launches_eq
    (hBooks : LaunchBooks config frontierSize rank)
    (hDone : frontierSize ≤ rank.rings.frontierCursor) :
    rank.trace.ringLaunches.length =
      config.localExchangeRounds frontierSize := by
  have hNeeded := hBooks.needed
  have hCursor := hBooks.cursor
  have hCovers :
      frontierSize ≤
        rank.trace.ringLaunches.length *
          config.parentsPerStream3Round := by
    omega
  rw [DispatchConfig.localExchangeRounds]
  cases hLength : rank.trace.ringLaunches.length with
  | zero =>
      rw [hLength, Nat.zero_mul] at hCovers
      rw [if_pos (by omega)]
  | succ n =>
      have hLess := hNeeded n hLength
      have hSome : frontierSize ≠ 0 := by omega
      rw [hLength] at hCovers
      rw [if_neg hSome]
      symm
      apply Nat.div_eq_of_lt_le
      · rw [Nat.succ_mul]
        omega
      · rw [Nat.succ_mul]
        have hPos : 0 < config.parentsPerStream3Round := by
          by_contra hZero
          have hNone : config.parentsPerStream3Round = 0 := by
            omega
          rw [hNone, Nat.mul_zero] at hCovers
          omega
        omega

----------------
-- The Books Of The Rings
----------------

/- The rings between launch and pass, the oldest first. -/
def Rank.inFlight
    (current : Option Nat)
    (rank : Rank) : List Nat :=
  current.toList ++ rank.rings.ready ++ rank.rings.running

/- `current` is the ring whose pass is under way. -/
structure RingBooks
    (config : DispatchConfig)
    (current : Option Nat)
    (rank : Rank) : Prop where
  running :
    ∀ ring ∈ rank.rings.running,
      rank.rings.state ring = .stream1Running
  ready :
    ∀ ring ∈ rank.rings.ready,
      rank.rings.state ring = .readyForStream3
  passing :
    ∀ ring ∈ current, rank.rings.state ring = .stream3Running
  inside :
    ∀ ring ∈ rank.inFlight current, ring < config.ringCount
  history :
    Fifo.replay [] rank.ringHistory =
      some (rank.inFlight current)

variable {current : Option Nat}

/- The books read four fields. -/
theorem RingBooks.congr
    {a b : Rank}
    (hBooks : RingBooks config current a)
    (hState : b.rings.state = a.rings.state)
    (hRunning : b.rings.running = a.rings.running)
    (hReady : b.rings.ready = a.rings.ready)
    (hEvents : b.trace.ringEvents = a.trace.ringEvents) :
    RingBooks config current b := by
  have hFlight : b.inFlight current = a.inFlight current := by
    rw [Rank.inFlight, hRunning, hReady, Rank.inFlight]
  constructor
  case running =>
    rw [hRunning, hState]
    exact hBooks.running
  case ready =>
    rw [hReady, hState]
    exact hBooks.ready
  case passing =>
    rw [hState]
    exact hBooks.passing
  case inside =>
    rw [hFlight]
    exact hBooks.inside
  case history =>
    rw [Rank.ringHistory, hEvents, hFlight]
    exact hBooks.history

/- No ring is in flight twice. -/
theorem RingBooks.nodup
    (hBooks : RingBooks config current rank) :
    (rank.inFlight current).Nodup :=
  Fifo.replay_nodup hBooks.history List.nodup_nil

/- A ring in flight is not free. -/
theorem RingBooks.not_free
    (hBooks : RingBooks config current rank)
    (hMem : ring ∈ rank.inFlight current) :
    rank.rings.state ring ≠ .free := by
  rw [Rank.inFlight, List.mem_append, List.mem_append] at hMem
  rcases hMem with (hPassing | hReady) | hRunning
  · rw [hBooks.passing ring (Option.mem_toList.mp hPassing)]
    decide
  · rw [hBooks.ready ring hReady]
    decide
  · rw [hBooks.running ring hRunning]
    decide

/- Updates of other rings do not show. -/
theorem state_update_of_ne
    {state : Nat → RingState}
    {other : Nat}
    {value old : RingState}
    (hState : state other = old)
    (hNe : other ≠ ring) :
    Function.update state ring value other = old := by
  rw [Function.update_of_ne hNe]
  exact hState

/- A launched ring goes to the end of those in flight. -/
theorem RingBooks.launchRing
    (hBooks : RingBooks config current rank)
    (hFree : rank.rings.state ring = .free)
    (hRing : ring < config.ringCount) :
    RingBooks config current
      (rank.launchRing config frontierSize ring) := by
  have hNew : ring ∉ rank.inFlight current := fun hMem =>
    hBooks.not_free hMem hFree
  have hFlight :
      (rank.launchRing config frontierSize ring).inFlight
          current =
        rank.inFlight current ++ [ring] := by
    simp [Rank.inFlight, Rank.launchRing]
  have hOther :
      ∀ other ∈ rank.inFlight current, other ≠ ring := by
    rintro other hMem rfl
    exact hNew hMem
  simp only [Rank.inFlight, List.mem_append] at hOther
  constructor
  case running =>
    intro other hMem
    rcases List.mem_append.mp hMem with hOld | hHere
    · exact
        state_update_of_ne (hBooks.running other hOld)
          (hOther other (Or.inr hOld))
    · rw [List.mem_singleton.mp hHere]
      exact Function.update_self _ _ _
  case ready =>
    intro other hMem
    exact
      state_update_of_ne (hBooks.ready other hMem)
        (hOther other (Or.inl (Or.inr hMem)))
  case passing =>
    intro other hMem
    exact
      state_update_of_ne (hBooks.passing other hMem)
        (hOther other
          (Or.inl (Or.inl (Option.mem_toList.mpr hMem))))
  case inside =>
    rw [hFlight]
    intro other hMem
    rcases List.mem_append.mp hMem with hOld | hHere
    · exact hBooks.inside other hOld
    · rw [List.mem_singleton.mp hHere]
      exact hRing
  case history =>
    have hHistory := Fifo.replay_enter hBooks.history hNew
    rw [hFlight, ← hHistory, Rank.ringHistory,
      Rank.ringHistory]
    dsimp only [Rank.launchRing]
    rw [List.map_append]
    rfl

/- The oldest running ring joins the ready ones. -/
theorem RingBooks.readyRing
    {rest : List Nat}
    (hBooks : RingBooks config current rank)
    (hRunning : rank.rings.running = ring :: rest) :
    RingBooks config current (rank.readyRing ring) := by
  have hFlight :
      (rank.readyRing ring).inFlight current =
        rank.inFlight current := by
    simp [Rank.inFlight, Rank.readyRing, hRunning]
  have hHere : rank.rings.state ring = .stream1Running :=
    hBooks.running ring (by simp [hRunning])
  have hNodup := hBooks.nodup
  rw [Rank.inFlight, hRunning] at hNodup
  have hRest : ring ∉ rest :=
    (List.nodup_cons.mp
      (hNodup.sublist (List.sublist_append_right _ _))).1
  constructor
  case running =>
    intro other hMem
    dsimp only [Rank.readyRing] at hMem
    rw [hRunning, List.tail_cons] at hMem
    refine state_update_of_ne (hBooks.running other ?_) ?_
    · rw [hRunning]
      exact List.mem_cons_of_mem _ hMem
    · rintro rfl
      exact hRest hMem
  case ready =>
    intro other hMem
    rcases List.mem_append.mp hMem with hOld | hNew
    · refine state_update_of_ne (hBooks.ready other hOld) ?_
      rintro rfl
      rw [hBooks.ready other hOld] at hHere
      cases hHere
    · rw [List.mem_singleton.mp hNew]
      exact Function.update_self _ _ _
  case passing =>
    intro other hMem
    refine state_update_of_ne (hBooks.passing other hMem) ?_
    rintro rfl
    rw [hBooks.passing other hMem] at hHere
    cases hHere
  case inside =>
    rw [hFlight]
    exact hBooks.inside
  case history =>
    rw [hFlight]
    exact hBooks.history

/- Stream 3 takes the oldest ready ring. -/
theorem RingBooks.launchStream3
    {rest : List Nat}
    (hBooks : RingBooks config none rank)
    (hReady : rank.rings.ready = ring :: rest) :
    RingBooks config (some ring) (rank.launchStream3 ring) := by
  have hFlight :
      (rank.launchStream3 ring).inFlight (some ring) =
        rank.inFlight none := by
    simp [Rank.inFlight, Rank.launchStream3, hReady]
  have hHere : rank.rings.state ring = .readyForStream3 :=
    hBooks.ready ring (by simp [hReady])
  have hNodup := hBooks.nodup
  rw [Rank.inFlight, Option.toList_none, List.nil_append, hReady,
    List.cons_append] at hNodup
  have hRest : ring ∉ rest := fun hMem =>
    (List.nodup_cons.mp hNodup).1
      (List.mem_append_left _ hMem)
  constructor
  case running =>
    intro other hMem
    refine state_update_of_ne (hBooks.running other hMem) ?_
    rintro rfl
    rw [hBooks.running other hMem] at hHere
    cases hHere
  case ready =>
    intro other hMem
    dsimp only [Rank.launchStream3] at hMem
    rw [hReady, List.tail_cons] at hMem
    refine state_update_of_ne (hBooks.ready other ?_) ?_
    · rw [hReady]
      exact List.mem_cons_of_mem _ hMem
    · rintro rfl
      exact hRest hMem
  case passing =>
    intro other hMem
    cases hMem
    exact Function.update_self _ _ _
  case inside =>
    rw [hFlight]
    exact hBooks.inside
  case history =>
    rw [hFlight]
    exact hBooks.history

/- The ring whose pass is over is free again. -/
theorem RingBooks.freeRing
    (hBooks : RingBooks config (some ring) rank) :
    RingBooks config none (rank.freeRing ring) := by
  have hHere : rank.rings.state ring = .stream3Running :=
    hBooks.passing ring rfl
  have hFlight :
      rank.inFlight (some ring) =
        ring :: (rank.freeRing ring).inFlight none := rfl
  constructor
  case running =>
    intro other hMem
    refine state_update_of_ne (hBooks.running other hMem) ?_
    rintro rfl
    rw [hBooks.running other hMem] at hHere
    cases hHere
  case ready =>
    intro other hMem
    refine state_update_of_ne (hBooks.ready other hMem) ?_
    rintro rfl
    rw [hBooks.ready other hMem] at hHere
    cases hHere
  case passing => exact nofun
  case inside =>
    intro other hMem
    apply hBooks.inside
    rw [hFlight]
    exact List.mem_cons_of_mem _ hMem
  case history =>
    have hHistory := hBooks.history
    rw [hFlight] at hHistory
    rw [← Fifo.replay_leave hHistory, Rank.ringHistory,
      Rank.ringHistory]
    dsimp only [Rank.freeRing]
    rw [List.map_append]
    rfl

/- Without an active ring nothing is in flight. -/
theorem RingBooks.inFlight_eq_nil
    (hBooks : RingBooks config none rank)
    (hIdle : anyActiveRing config rank = false) :
    rank.inFlight none = [] := by
  rw [List.eq_nil_iff_forall_not_mem]
  intro ring hMem
  have hBusy : anyActiveRing config rank = true := by
    rw [anyActiveRing, List.any_eq_true]
    exact
      ⟨ring, List.mem_range.mpr (hBooks.inside ring hMem),
        decide_eq_true (hBooks.not_free hMem)⟩
  rw [hIdle] at hBusy
  cases hBusy

/- Nothing was launched at the start. -/
theorem initialRank_launchBooks
    (config : DispatchConfig)
    (frontierSize : Nat)
    (schedule : List (List DeviceEvent))
    (replies : List Reply) :
    LaunchBooks config frontierSize
      (initialRank config schedule replies) := by
  refine ⟨rfl, ?_, nofun, nofun, rfl⟩
  simp [initialRank]

/- All rings are free at the start. -/
theorem initialRank_ringBooks
    (config : DispatchConfig)
    (schedule : List (List DeviceEvent))
    (replies : List Reply) :
    RingBooks config none
      (initialRank config schedule replies) :=
  ⟨nofun, nofun, nofun, nofun, rfl⟩

end Dispatcher

end BeamSearch
