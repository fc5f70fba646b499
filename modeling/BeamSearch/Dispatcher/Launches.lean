import BeamSearch.Dispatcher.Rings
import BeamSearch.Dispatcher.Sorting

/-
  What a depth launches, however it ends.

  Whatever the rounds and the collectives do, they change the
  rings by launches only. A launch is the only step that moves
  the frontier cursor, and it moves it on. So the books of the
  launches hold at the end of every run, a return or a stop.

  Main declarations:
    * `RingStable`, `RingSteps`
    * `runStream5ExchangeAndCollect_steps`
    * `Launches`, `runDepth_launches_spec`
    * `runDepth_launches_frontier`
-/

namespace BeamSearch

open Hoare

namespace Dispatcher

----------------
-- Steps That At Most Launch
----------------

/- Two states agree on the rings and on a stop. -/
structure SameRings (a b : Rank) : Prop where
  rings : b.rings = a.rings
  stopRequested : b.stopRequested = a.stopRequested
  ringLaunches : b.trace.ringLaunches = a.trace.ringLaunches
  ringEvents : b.trace.ringEvents = a.trace.ringEvents

/- Kept by the launch of a free ring and by steps beside it. -/
structure RingStable
    (config : DispatchConfig)
    (frontierSize : Nat)
    (F : Rank → Prop) : Prop where
  same : ∀ a b, SameRings a b → F a → F b
  launch :
    ∀ s ring,
      s.rings.frontierCursor < frontierSize →
        s.rings.state ring = .free →
          ring < config.ringCount →
            F s → F (s.launchRing config frontierSize ring)

/- What stable predicates cannot tell from launches. -/
def RingSteps
    (config : DispatchConfig)
    (frontierSize : Nat)
    (a b : Rank) : Prop :=
  ∀ F, RingStable config frontierSize F → F a → F b

section Launches

variable {config : DispatchConfig}
variable {frontierSize fuel : Nat}

/- Programs of such steps compose. -/
theorem ringSteps_frame :
    Frame (RingSteps config frontierSize) where
  refl _ _ _ hF := hF
  trans hFirst hSecond F hF hS := hSecond F hF (hFirst F hF hS)

/- The rounds say nothing of the rings. -/
theorem SameRings.of_rounds
    {a b : Rank}
    (hSame : SameRounds a b) :
    SameRings a b :=
  ⟨hSame.rings, hSame.stopRequested, hSame.ringLaunches,
    hSame.ringEvents⟩

/- Rings that stay as they are. -/
theorem RingSteps.of_same
    {a b : Rank}
    (hSame : SameRings a b) :
    RingSteps config frontierSize a b :=
  fun _ hF hA => hF.same a b hSame hA

/- A program that touches no ring. -/
theorem steps_of_rounds
    {α : Type}
    {program : Dispatch α}
    (hWithin : Within SameRounds program) :
    Within (RingSteps config frontierSize) program :=
  hWithin.mono fun _ _ hSame =>
    RingSteps.of_same (SameRings.of_rounds hSame)

/- A program that sorts. -/
theorem steps_of_sorts
    {α : Type}
    {program : Dispatch α}
    (hWithin : Within Sorts program) :
    Within (RingSteps config frontierSize) program :=
  steps_of_rounds (sameRounds_of_sorts hWithin)

/- An update that touches no ring. -/
theorem update_steps
    {f : Rank → Rank}
    (hSame : ∀ s, SameRings s (f s)) :
    Within (RingSteps config frontierSize)
      (modify f : Dispatch PUnit) :=
  Within.update fun s => RingSteps.of_same (hSame s)

/- A ring is launched with the next parents, or none is. -/
theorem launchRingIfFree_steps
    {ring : Nat}
    (hRing : ring < config.ringCount) :
    Within (RingSteps config frontierSize)
      (launchRingIfFree config frontierSize ring) := by
  intro s
  apply Triple.read
  rintro t rfl
  have hSorts := observed_sorts config t
  have hSame :
      RingSteps config frontierSize t (t.observed config) :=
    RingSteps.of_same (SameRings.of_rounds hSorts.toSameRounds)
  refine Triple.branch ?_ ?_
  · rintro ⟨hMore, hFree⟩
    rw [← hSorts.rings] at hMore hFree
    apply observe_bind
    refine Triple.branch ?_ ?_
    · intro _
      apply Triple.value
      rintro u rfl
      exact hSame
    · intro _
      apply Triple.update_bind
      apply Triple.value
      rintro u rfl
      exact
        ringSteps_frame.trans hSame fun F hF hS =>
          hF.launch _ ring hMore hFree hRing hS
  · intro _
    apply Triple.value
    rintro u rfl
    exact ringSteps_frame.refl u

/- All rings are tried. -/
theorem launchFreeRings_steps :
    Within (RingSteps config frontierSize)
      (launchFreeRings config frontierSize) := by
  refine
    Within.seq ringSteps_frame (Within.current ringSteps_frame) ?_
  intro rank
  exact
    Within.branch (Within.value ringSteps_frame _)
      (Within.anyOf ringSteps_frame fun _ hMem =>
        launchRingIfFree_steps (List.mem_range.mp hMem))

/- The rings are filled where one is free. -/
theorem prefill_steps :
    Within (RingSteps config frontierSize)
      (prefill config frontierSize) := by
  refine Within.branch ?_ (Within.value ringSteps_frame _)
  refine Within.seq ringSteps_frame launchFreeRings_steps ?_
  intro _
  exact Within.value ringSteps_frame _

/- An answer of the other ranks. -/
theorem answer_steps :
    Within (RingSteps config frontierSize) (answer config) := by
  refine
    Within.seq ringSteps_frame
      (steps_of_sorts (observe_within config)) ?_
  intro rank
  rcases rank.replies with _ | ⟨reply, replies⟩
  · exact Within.stop ringSteps_frame _
  · refine
      Within.seq ringSteps_frame
        (update_steps fun _ => ⟨rfl, rfl, rfl, rfl⟩)
        ?_
    intro _
    exact Within.value ringSteps_frame _

/- A record of a collective. -/
theorem record_steps (event : CollectiveEvent) :
    Within (RingSteps config frontierSize)
      (modify (Rank.record event) : Dispatch PUnit) :=
  update_steps fun _ => ⟨rfl, rfl, rfl, rfl⟩

/- A collective. -/
theorem allReduce_steps
    (collective : Collective)
    (contribution : Nat) :
    Within (RingSteps config frontierSize)
      (allReduce config collective contribution) := by
  refine Within.seq ringSteps_frame (record_steps _) ?_
  intro _
  refine Within.seq ringSteps_frame answer_steps ?_
  intro reply
  refine Within.seq ringSteps_frame (record_steps _) ?_
  intro _
  exact Within.value ringSteps_frame _

/- An update of all ranks: the waits between fill the rings. -/
theorem maybeRunStream5ThresholdUpdate_steps
    (forceLocalRequest capacityPressure : Bool) :
    Within (RingSteps config frontierSize)
      (maybeRunStream5ThresholdUpdate config fuel
        forceLocalRequest capacityPressure) := by
  refine Within.branch ?_ (Within.value ringSteps_frame _)
  refine
    Within.seq ringSteps_frame (Within.current ringSteps_frame) ?_
  intro rank
  refine Within.seq ringSteps_frame (allReduce_steps _ _) ?_
  intro globalRequest
  refine Within.branch (Within.value ringSteps_frame _) ?_
  refine
    Within.seq ringSteps_frame
      (steps_of_sorts (pressureFlushIf_within config fuel _))
      ?_
  intro _
  refine Within.seq ringSteps_frame (allReduce_steps _ _) ?_
  intro _
  refine
    Within.seq ringSteps_frame
      (steps_of_sorts (pressureFlushIf_within config fuel _))
      ?_
  intro _
  exact update_steps fun _ => ⟨rfl, rfl, rfl, rfl⟩

/- A round's room is made by sorting. -/
theorem reserveStream3Round_steps :
    Within (RingSteps config frontierSize)
      (reserveStream3Round config fuel) := by
  refine
    Within.seq ringSteps_frame (Within.current ringSteps_frame) ?_
  intro rank
  refine Within.branch (Within.value ringSteps_frame _) ?_
  refine
    Within.seq ringSteps_frame
      (steps_of_sorts (releaseCompletedStream4Slots_within config))
      ?_
  intro _
  refine
    Within.seq ringSteps_frame
      (steps_of_sorts (stream3HasWritableBuffer_within config _))
      ?_
  intro room
  refine
    Within.seq ringSteps_frame
      (maybeRunStream5ThresholdUpdate_steps _ _) ?_
  intro _
  refine Within.seq ringSteps_frame ?_ ?_
  · refine Within.branch (Within.value ringSteps_frame _) ?_
    refine
      Within.seq ringSteps_frame
        (steps_of_sorts (stream3HasWritableBuffer_within config _))
        ?_
    intro late
    exact
      Within.branch (Within.value ringSteps_frame _)
        (steps_of_sorts (fail_within _))
  · intro _
    exact
      update_steps fun _ => ⟨rfl, rfl, rfl, rfl⟩

/- The check stops or does nothing. -/
theorem checkRound_steps
    (ring : Nat)
    (zeroSend : Bool) :
    Within (RingSteps config frontierSize)
      (checkRound config ring zeroSend) := by
  have hFail :
      ∀ what,
        Within (RingSteps config frontierSize)
          (fail what : Dispatch PUnit) :=
    fun what => steps_of_sorts (fail_within what)
  refine
    Within.seq ringSteps_frame (Within.current ringSteps_frame) ?_
  intro rank
  exact
    Within.branch (hFail _)
      (Within.branch (hFail _)
        (Within.branch (hFail _) (Within.value ringSteps_frame _)))

/- The counts of a round, with rings filled meanwhile. -/
theorem exchangeCounts_steps :
    Within (RingSteps config frontierSize)
      (exchangeCounts config frontierSize) := by
  refine Within.seq ringSteps_frame (record_steps _) ?_
  intro _
  refine Within.seq ringSteps_frame prefill_steps ?_
  intro _
  refine Within.seq ringSteps_frame answer_steps ?_
  intro reply
  refine Within.seq ringSteps_frame (record_steps _) ?_
  intro _
  exact
    Within.branch (steps_of_sorts (fail_within _))
      (Within.value ringSteps_frame _)

/- The rows of a round. -/
theorem exchangePayload_steps :
    Within (RingSteps config frontierSize)
      (exchangePayload config frontierSize) := by
  refine Within.seq ringSteps_frame (record_steps _) ?_
  intro _
  refine Within.seq ringSteps_frame prefill_steps ?_
  intro _
  refine Within.seq ringSteps_frame answer_steps ?_
  intro _
  exact record_steps _

/- One round. -/
theorem runStream5ExchangeAndCollect_steps
    (ring : Nat)
    (zeroSend : Bool) :
    Within (RingSteps config frontierSize)
      (runStream5ExchangeAndCollect config frontierSize fuel ring
        zeroSend) := by
  refine Within.branch ?_ (Within.value ringSteps_frame _)
  refine Within.seq ringSteps_frame ?_ ?_
  · exact
      Within.branch reserveStream3Round_steps
        (Within.value ringSteps_frame _)
  intro _
  refine Within.seq ringSteps_frame (checkRound_steps _ _) ?_
  intro _
  refine Within.seq ringSteps_frame exchangeCounts_steps ?_
  intro rows
  refine Within.seq ringSteps_frame exchangePayload_steps ?_
  intro _
  refine
    Within.seq ringSteps_frame
      (steps_of_rounds (collectRemote_within config rows)) ?_
  intro _
  exact update_steps fun _ => ⟨rfl, rfl, rfl, rfl⟩

----------------
-- The Launches
----------------

/- The books are kept and the cursor does not go back. -/
structure Launches
    (config : DispatchConfig)
    (frontierSize : Nat)
    (a b : Rank) : Prop where
  books :
    LaunchBooks config frontierSize a →
      LaunchBooks config frontierSize b
  cursor : a.rings.frontierCursor ≤ b.rings.frontierCursor

/- Launches compose, and the cursor never goes back. -/
theorem launches_frame : Frame (Launches config frontierSize) where
  refl _ := ⟨id, le_rfl⟩
  trans hFirst hSecond :=
    ⟨fun hBooks => hSecond.books (hFirst.books hBooks),
      hFirst.cursor.trans hSecond.cursor⟩

/- The books read three fields. -/
theorem Launches.of_same
    {a b : Rank}
    (hCursor :
      b.rings.frontierCursor = a.rings.frontierCursor)
    (hLaunches : b.trace.ringLaunches = a.trace.ringLaunches)
    (hEvents : b.trace.ringEvents = a.trace.ringEvents) :
    Launches config frontierSize a b :=
  ⟨fun hBooks => hBooks.congr hCursor hLaunches hEvents,
    hCursor.ge⟩

/-
  The books of the launches are kept by every step of the
  rings.
-/
theorem launchBooks_stable :
    RingStable config frontierSize
      (LaunchBooks config frontierSize) where
  same _ _ hSame hBooks :=
    hBooks.congr (congrArg RingQueue.frontierCursor hSame.rings)
      hSame.ringLaunches hSame.ringEvents
  launch _ _ hMore _ _ hBooks := hBooks.launchRing hMore

/- The cursor does not go back. -/
theorem cursor_stable (cursor : Nat) :
    RingStable config frontierSize fun s =>
      cursor ≤ s.rings.frontierCursor where
  same _ _ hSame hCursor := by
    rw [hSame.rings]
    exact hCursor
  launch s ring hMore _ _ hCursor := by
    have hUpTo :=
      (ringSlotJobs_spec config (List.range config.ringSlotCount)
        hMore.le).upTo
    dsimp only [Rank.launchRing]
    rw [hUpTo]
    omega

/- So a program of such steps keeps the books. -/
theorem launches_of_steps
    {α : Type}
    {program : Dispatch α}
    (hWithin : Within (RingSteps config frontierSize) program) :
    Within (Launches config frontierSize) program :=
  hWithin.mono fun a _ hSteps =>
    ⟨hSteps _ launchBooks_stable,
      hSteps _ (cursor_stable a.rings.frontierCursor) le_rfl⟩

/- A program that sorts launches nothing. -/
theorem launches_of_sorts
    {α : Type}
    {program : Dispatch α}
    (hWithin : Within Sorts program) :
    Within (Launches config frontierSize) program :=
  launches_of_steps (steps_of_sorts hWithin)

/- A step of the host that launches no ring. -/
theorem update_launches
    {f : Rank → Rank}
    (hCursor :
      ∀ s, (f s).rings.frontierCursor = s.rings.frontierCursor)
    (hLaunches :
      ∀ s, (f s).trace.ringLaunches = s.trace.ringLaunches)
    (hEvents :
      ∀ s, (f s).trace.ringEvents = s.trace.ringEvents) :
    Within (Launches config frontierSize)
      (modify f : Dispatch PUnit) :=
  Within.update fun s =>
    Launches.of_same (hCursor s) (hLaunches s) (hEvents s)

/- A ring is freed after its pass. -/
theorem freeRing_launches (ring : Nat) :
    Within (Launches config frontierSize)
      (modify (Rank.freeRing ring) : Dispatch PUnit) :=
  Within.update fun _ => ⟨fun hBooks => hBooks.freeRing, le_rfl⟩

----------------
-- Stream 3
----------------

/- A launched pass is no launch of parents. -/
theorem launchStream3Ring_launches :
    Within (Launches config frontierSize) launchStream3Ring := by
  refine
    Within.seq launches_frame (Within.current launches_frame) ?_
  intro rank
  rcases rank.rings.ready with _ | ⟨ring, rings⟩
  · exact Within.stop launches_frame _
  · refine Within.branch ?_ (launches_of_sorts (fail_within _))
    refine
      Within.seq launches_frame
        (update_launches (fun _ => rfl) (fun _ => rfl)
          fun _ => rfl)
        ?_
    intro _
    exact Within.value launches_frame _

/- The pass, where no ring is in it. -/
theorem tryLaunchStream3_launches :
    Within (Launches config frontierSize)
      (tryLaunchStream3 config fuel) := by
  refine
    Within.seq launches_frame (Within.current launches_frame) ?_
  intro rank
  refine Within.branch (Within.value launches_frame _) ?_
  refine
    Within.seq launches_frame
      (launches_of_steps reserveStream3Round_steps) ?_
  intro _
  refine Within.branch launchStream3Ring_launches ?_
  refine
    Within.seq launches_frame
      (launches_of_sorts (stream3HasWritableBuffer_within config _))
      ?_
  intro writable
  refine Within.branch launchStream3Ring_launches ?_
  refine
    Within.seq launches_frame
      (launches_of_steps
          (steps_of_rounds (relievePressure_within config))) ?_
  intro relieved
  refine
    Within.seq launches_frame (Within.current launches_frame) ?_
  intro after
  exact
    Within.branch (Within.value launches_frame _)
      launchStream3Ring_launches

/- The end of a pass. -/
theorem completeStream3Ring_launches :
    Within (Launches config frontierSize)
      (completeStream3Ring config frontierSize fuel) := by
  refine
    Within.seq launches_frame (Within.current launches_frame) ?_
  intro rank
  rcases rank.rings.active with _ | ring
  · exact launches_of_sorts (fail_within _)
  · refine
      Within.seq launches_frame
        (launches_of_sorts
          (throwIfStreamFatalError_within config _))
        ?_
    intro _
    refine
      Within.seq launches_frame
        (update_launches (fun _ => rfl) (fun _ => rfl)
          fun _ => rfl)
        ?_
    intro _
    refine
      Within.seq launches_frame
        (launches_of_steps (runStream5ExchangeAndCollect_steps _ _)) ?_
    intro _
    refine Within.seq launches_frame (freeRing_launches _) ?_
    intro _
    exact launches_of_sorts (appendUnlessStopped_within config)

/- The wait for a pass. -/
theorem waitStream3_launches :
    Within (Launches config frontierSize)
      (waitStream3 config frontierSize fuel) := by
  refine
    Within.seq launches_frame
      (launches_of_sorts (await_within config _)) ?_
  intro _
  exact completeStream3Ring_launches

----------------
-- The Main Loop
----------------

/- The rings that are done, one by one. -/
theorem releaseRings_launches (rings : List Nat) :
    Within (Launches config frontierSize)
      (releaseRings config rings) := by
  induction rings with
  | nil => exact Within.value launches_frame _
  | cons ring rings ih =>
      refine
        Within.seq launches_frame
          (launches_of_sorts (observe_within config)) ?_
      intro rank
      refine Within.branch (Within.value launches_frame _) ?_
      refine
        Within.seq launches_frame
          (update_launches (fun _ => rfl) (fun _ => rfl)
            fun _ => rfl)
          ?_
      intro _
      refine Within.seq launches_frame ih ?_
      intro _
      exact Within.value launches_frame _

/- Those of the running ones. -/
theorem releaseCompletedRings_launches :
    Within (Launches config frontierSize)
      (releaseCompletedRings config) := by
  refine
    Within.seq launches_frame (Within.current launches_frame) ?_
  intro rank
  exact releaseRings_launches _

/- A stop launches nothing. -/
theorem refreshStopRequested_launches :
    Within (Launches config frontierSize)
      (refreshStopRequested config) := by
  refine
    Within.seq launches_frame (Within.current launches_frame) ?_
  intro rank
  refine Within.branch (Within.value launches_frame _) ?_
  refine Within.branch (Within.value launches_frame _) ?_
  refine
    Within.seq launches_frame
      (launches_of_sorts (observe_within config)) ?_
  intro after
  refine
    Within.seq launches_frame
      (update_launches (fun _ => rfl) (fun _ => rfl)
        fun _ => rfl)
      ?_
  intro _
  exact Within.value launches_frame _

/- Rings that are dropped had been launched. -/
theorem discardReadyRings_launches :
    Within (Launches config frontierSize)
      discardReadyRingsAfterStop := by
  refine
    Within.seq launches_frame (Within.current launches_frame) ?_
  intro rank
  refine
    Within.seq launches_frame
      (update_launches (fun _ => rfl) (fun _ => rfl)
        fun _ => rfl)
      ?_
  intro _
  exact Within.value launches_frame _

/- The wait for the first ring. -/
theorem waitOldestRing_launches :
    Within (Launches config frontierSize)
      (waitOldestRing config) := by
  refine
    Within.seq launches_frame (Within.current launches_frame) ?_
  intro rank
  rcases rank.rings.running with _ | ⟨ring, rings⟩
  · exact Within.stop launches_frame _
  · refine
      Within.seq launches_frame
        (launches_of_sorts (await_within config _)) ?_
    intro _
    refine
      Within.seq launches_frame
        (update_launches (fun _ => rfl) (fun _ => rfl)
          fun _ => rfl)
        ?_
    intro _
    refine
      Within.seq launches_frame releaseCompletedRings_launches ?_
    intro _
    refine
      Within.seq launches_frame refreshStopRequested_launches ?_
    intro _
    exact Within.value launches_frame _

/- The wait for a slot. -/
theorem waitCompleted_launches :
    Within (Launches config frontierSize)
      (waitCompletedStream4Slot config fuel) :=
  launches_of_sorts (waitCompletedStream4Slot_within config fuel)

/- The waits after a stop. -/
theorem waitAfterStop_launches (progressed : Bool) :
    Within (Launches config frontierSize)
      (waitAfterStop config frontierSize fuel progressed) := by
  refine
    Within.seq launches_frame (Within.current launches_frame) ?_
  intro rank
  refine Within.branch (Within.value launches_frame _) ?_
  refine Within.branch waitStream3_launches ?_
  refine Within.branch waitOldestRing_launches ?_
  refine Within.branch ?_ ?_
  · refine Within.seq launches_frame waitCompleted_launches ?_
    intro _
    exact Within.value launches_frame _
  · refine Within.seq launches_frame discardReadyRings_launches ?_
    intro _
    exact Within.value launches_frame _

/- The waits without progress. -/
theorem waitForProgress_launches (progressed : Bool) :
    Within (Launches config frontierSize)
      (waitForProgress config frontierSize fuel progressed) := by
  refine
    Within.seq launches_frame (Within.current launches_frame) ?_
  intro rank
  refine Within.branch (Within.value launches_frame _) ?_
  refine Within.branch waitStream3_launches ?_
  refine Within.branch waitOldestRing_launches ?_
  refine Within.branch ?_ (Within.value launches_frame _)
  refine Within.seq launches_frame waitCompleted_launches ?_
  intro _
  exact Within.value launches_frame _

/- The work that a turn starts. -/
theorem startWork_launches (progressed : Bool) :
    Within (Launches config frontierSize)
      (startWork config frontierSize fuel progressed) := by
  have hUpdate :
      Within (Launches config frontierSize)
        (maybeUpdateThreshold config fuel) :=
    launches_of_sorts (maybeUpdateThreshold_within config fuel)
  refine Within.seq launches_frame hUpdate ?_
  intro updated
  refine
    Within.seq launches_frame
      (launches_of_sorts (launchPendingStream4Shards_within config))
      ?_
  intro shards
  refine
    Within.seq launches_frame
      (launches_of_steps launchFreeRings_steps) ?_
  intro rings
  refine Within.seq launches_frame tryLaunchStream3_launches ?_
  intro stream3
  refine Within.seq launches_frame hUpdate ?_
  intro again
  exact waitForProgress_launches _

/- The pass is ended where it is done. -/
theorem releaseStream3_launches :
    Within (Launches config frontierSize)
      (releaseStream3 config frontierSize fuel) := by
  refine
    Within.seq launches_frame (Within.current launches_frame) ?_
  intro rank
  refine Within.branch ?_ (Within.value launches_frame _)
  refine
    Within.seq launches_frame
      (launches_of_sorts (observe_within config)) ?_
  intro after
  refine Within.branch ?_ (Within.value launches_frame _)
  refine
    Within.seq launches_frame completeStream3Ring_launches ?_
  intro _
  exact Within.value launches_frame _

/- The rings are dropped after a stop. -/
theorem discardIfStopped_launches (ringsCompleted : Bool) :
    Within (Launches config frontierSize)
      (discardIfStopped config ringsCompleted) := by
  refine Within.branch ?_ (Within.value launches_frame _)
  refine
    Within.seq launches_frame refreshStopRequested_launches ?_
  intro stopped
  exact
    Within.branch discardReadyRings_launches
      (Within.value launches_frame _)

/- One turn of the loop. -/
theorem eventLoopRound_launches :
    Within (Launches config frontierSize)
      (eventLoopRound config frontierSize fuel) := by
  refine
    Within.seq launches_frame (Within.current launches_frame) ?_
  intro rank
  refine Within.branch ?_ (Within.value launches_frame _)
  refine
    Within.seq launches_frame
      (launches_of_sorts (releaseCompletedStream4Slots_within config))
      ?_
  intro slots
  refine
    Within.seq launches_frame releaseCompletedRings_launches ?_
  intro rings
  refine Within.seq launches_frame releaseStream3_launches ?_
  intro stream3
  refine
    Within.seq launches_frame (discardIfStopped_launches rings) ?_
  intro discarded
  refine
    Within.seq launches_frame (Within.current launches_frame) ?_
  intro after
  refine Within.branch ?_ ?_
  · refine
      Within.seq launches_frame (waitAfterStop_launches _) ?_
    intro _
    exact Within.value launches_frame _
  · refine Within.seq launches_frame (startWork_launches _) ?_
    intro _
    exact Within.value launches_frame _

/- The loop is left in a state that does not keep running. -/
theorem eventLoopRound_left :
    Triple (fun _ => True)
      (eventLoopRound config frontierSize fuel)
      (fun done s =>
        done = true → keepsRunning config frontierSize s = false)
      fun _ _ => True := by
  apply Triple.read
  intro s _
  refine Triple.branch ?_ ?_
  · intro _
    apply Triple.seq (Triple.any _)
    intro slots
    apply Triple.seq (Triple.any _)
    intro rings
    apply Triple.seq (Triple.any _)
    intro stream3
    apply Triple.seq (Triple.any _)
    intro discarded
    apply Triple.read
    intro t _
    refine Triple.branch ?_ ?_
    · intro _
      apply Triple.seq (Triple.any _)
      intro _
      exact Triple.value fun _ _ hDone => by cases hDone
    · intro _
      apply Triple.seq (Triple.any _)
      intro _
      exact Triple.value fun _ _ hDone => by cases hDone
  · intro hLeft
    apply Triple.value
    rintro t rfl -
    exact Bool.eq_false_of_not_eq_true hLeft

----------------
-- A Whole Depth
----------------

/- The end of a depth launches no parents of its own. -/
theorem finishDepth_steps (globalRounds : Nat) :
    Within (RingSteps config frontierSize)
      (finishDepth config frontierSize fuel globalRounds) := by
  refine Within.seq ringSteps_frame ?_ ?_
  · refine Within.repeatUntil ringSteps_frame ?_
    refine
      Within.seq ringSteps_frame (Within.current ringSteps_frame) ?_
    intro rank
    refine Within.branch ?_ (Within.value ringSteps_frame _)
    refine
      Within.seq ringSteps_frame
        (runStream5ExchangeAndCollect_steps _ _) ?_
    intro _
    refine
      Within.seq ringSteps_frame
        (steps_of_sorts
          (launchPendingStream4Shards_within config))
        ?_
    intro _
    exact Within.value ringSteps_frame _
  intro _
  refine Within.seq ringSteps_frame ?_ ?_
  · refine Within.branch ?_ (Within.value ringSteps_frame _)
    refine
      Within.seq ringSteps_frame
        (steps_of_sorts
          (releaseCompletedStream4Slots_within config))
        ?_
    intro _
    refine
      Within.seq ringSteps_frame (Within.current ringSteps_frame) ?_
    intro rank
    exact maybeRunStream5ThresholdUpdate_steps _ _
  intro _
  refine
    Within.seq ringSteps_frame
      (steps_of_sorts
        (drainPendingStream4Shards_within config fuel))
      ?_
  intro _
  refine
    Within.seq ringSteps_frame
      (steps_of_sorts
        (forcePeriodicThresholdUpdate_within config fuel))
      ?_
  intro _
  refine
    Within.seq ringSteps_frame
      (steps_of_rounds (flushRounds_within config fuel _)) ?_
  intro _
  exact steps_of_sorts (checkCleanCounts_within config)

/-
  The whole depth: a loop that ends without a stop has
  launched the frontier.
-/
theorem runDepth_launches_spec :
    Triple (LaunchBooks config frontierSize)
      (runDepth config frontierSize fuel)
      (fun _ s =>
        LaunchBooks config frontierSize s ∧
          (s.stopRequested = false →
            frontierSize ≤ s.rings.frontierCursor))
      fun _ => LaunchBooks config frontierSize := by
  have hKeeps :
      ∀ {α : Type} {program : Dispatch α},
        Within (Launches config frontierSize) program →
          Triple (LaunchBooks config frontierSize) program
            (fun _ => LaunchBooks config frontierSize)
            fun _ => LaunchBooks config frontierSize :=
    fun hWithin => hWithin.keeps fun _ _ hStep => hStep.books
  refine
    Triple.branch (fun _ => Triple.stop fun _ hBooks => hBooks)
      fun _ => ?_
  refine Triple.seq (hKeeps ?_) ?_
  · exact
      Within.branch (launches_of_steps (allReduce_steps _ _))
        (Within.value launches_frame _)
  intro globalRounds
  refine
    Triple.seq
      (hKeeps
        (update_launches (fun _ => rfl) (fun _ => rfl)
          fun _ => rfl))
      ?_
  intro _
  apply Triple.seq (hKeeps (launches_of_steps launchFreeRings_steps))
  intro _
  have hLoop :
      Triple (LaunchBooks config frontierSize)
        (Hoare.repeatUntil .stalled fuel
          (eventLoopRound config frontierSize fuel))
        (fun _ s =>
          LaunchBooks config frontierSize s ∧
            keepsRunning config frontierSize s = false)
        fun _ => LaunchBooks config frontierSize := by
    refine Triple.repeatUntil ?_ fun _ hBooks => hBooks
    refine
      Triple.conseq
        ((hKeeps eventLoopRound_launches).and eventLoopRound_left)
        (fun _ hBooks => ⟨hBooks, trivial⟩) ?_
        fun _ _ hStop => hStop.1
    rintro done s ⟨hBooks, hLeft⟩
    cases done with
    | true => exact ⟨hBooks, hLeft rfl⟩
    | false => exact hBooks
  apply Triple.seq hLoop
  intro _
  apply Triple.read
  rintro s ⟨hBooks, hLeft⟩
  refine Triple.branch ?_ ?_
  · intro hStopped
    refine
      Triple.conseq
        ((hKeeps
          (launches_of_sorts
            (waitAllStream4Slots_within config fuel))).and
          (waitAllStream4Slots_stopped config fuel))
        ?_ ?_ fun _ _ hStop => hStop.1
    · rintro t rfl
      exact ⟨hBooks, hStopped⟩
    · rintro _ t ⟨hAfter, hStill⟩
      refine ⟨hAfter, fun hRunning => ?_⟩
      rw [hStill] at hRunning
      cases hRunning
  · intro hRunning
    have hCursor : frontierSize ≤ s.rings.frontierCursor := by
      by_contra hMore
      have hKeepsRunning :
          keepsRunning config frontierSize s = true := by
        rw [keepsRunning, Bool.eq_false_of_not_eq_true hRunning,
          decide_eq_true (not_le.mp hMore)]
        simp
      rw [hKeepsRunning] at hLeft
      cases hLeft
    let Used : Rank → Prop := fun t =>
      LaunchBooks config frontierSize t ∧
        frontierSize ≤ t.rings.frontierCursor
    have hFinish :
        Triple Used
          (finishDepth config frontierSize fuel globalRounds)
          (fun _ => Used) fun _ => Used :=
      (launches_of_steps (finishDepth_steps globalRounds)).keeps
        fun _ _ hStep hUsed =>
          ⟨hStep.books hUsed.1, hUsed.2.trans hStep.cursor⟩
    refine
      Triple.conseq hFinish ?_ (fun _ _ hUsed => ?_)
        fun _ _ hUsed => hUsed.1
    · rintro t rfl
      exact ⟨hBooks, hCursor⟩
    · exact ⟨hUsed.1, fun _ => hUsed.2⟩

end Launches

/-
  However a depth ends, the parents it has launched are those
  before its cursor, each once and in order. One that returns
  without a stop request has launched the whole frontier, with
  as many rings as the frontier needs.
-/
theorem runDepth_launches_frontier
    (config : DispatchConfig)
    (frontierSize fuel : Nat)
    (schedule : List (List DeviceEvent))
    (replies : List Reply) :
    Triple (fun s => s = initialRank config schedule replies)
      (runDepth config frontierSize fuel)
      (fun _ s =>
        s.launchedParents = List.range s.rings.frontierCursor ∧
          s.rings.frontierCursor ≤ frontierSize ∧
          (s.stopRequested = false →
            s.launchedParents = List.range frontierSize ∧
              s.trace.ringLaunches.length =
                config.localExchangeRounds frontierSize))
      fun _ s =>
        s.launchedParents = List.range s.rings.frontierCursor ∧
          s.rings.frontierCursor ≤ frontierSize := by
  have hWithin :
      ∀ s, LaunchBooks config frontierSize s →
        s.rings.frontierCursor ≤ frontierSize := by
    intro s hBooks
    rw [hBooks.cursor]
    exact min_le_left _ _
  refine
    Triple.conseq runDepth_launches_spec ?_ ?_
      fun _ s hBooks => ⟨hBooks.parents, hWithin s hBooks⟩
  · rintro s rfl
    exact
      initialRank_launchBooks config frontierSize schedule replies
  · rintro _ s ⟨hBooks, hDone⟩
    refine ⟨hBooks.parents, hWithin s hBooks, fun hRunning => ?_⟩
    have hUsed := hDone hRunning
    refine ⟨?_, hBooks.launches_eq hUsed⟩
    rw [hBooks.parents, (hWithin s hBooks).antisymm hUsed]

end Dispatcher

end BeamSearch
