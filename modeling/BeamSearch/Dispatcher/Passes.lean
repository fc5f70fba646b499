import BeamSearch.Dispatcher.Depth
import BeamSearch.Dispatcher.Launches

/-
  How the rings of a depth pass through stream 3.

  Until a stop request the rings are a queue: a launch puts one
  in at the end, and the pass that ends is that of the oldest.
  The event loop is left with nothing in the queue, and with the
  frontier used up nothing enters it again.

  Main declarations:
    * `LoopRings`, `PassRings`, `Passed`
    * `eventLoopRound_rings`
    * `runDepth_passes_in_order`
-/

namespace BeamSearch

open Hoare

namespace Dispatcher

----------------
-- Rings Between Launch And Pass
----------------

/- Until a stop request the books of the rings hold. -/
def LoopRings
    (config : DispatchConfig)
    (rank : Rank) : Prop :=
  rank.stopRequested = false →
    RingBooks config rank.rings.active rank

/- The host is done with a ring that is not yet free. -/
def PassRings
    (config : DispatchConfig)
    (ring : Nat)
    (rank : Rank) : Prop :=
  rank.rings.active = none ∧
    (rank.stopRequested = false →
      RingBooks config (some ring) rank)

/- The frontier is used up and no ring is in flight. -/
def Passed
    (config : DispatchConfig)
    (frontierSize : Nat)
    (rank : Rank) : Prop :=
  frontierSize ≤ rank.rings.frontierCursor ∧
    (rank.stopRequested = false →
      RingBooks config none rank ∧ rank.inFlight none = [])

section Passes

variable {config : DispatchConfig}
variable {frontierSize fuel : Nat}
variable {F G : Rank → Prop}

/- Two such facts together. -/
theorem RingStable.and
    (hF : RingStable config frontierSize F)
    (hG : RingStable config frontierSize G) :
    RingStable config frontierSize fun s => F s ∧ G s where
  same a b hSame hBoth :=
    ⟨hF.same a b hSame hBoth.1, hG.same a b hSame hBoth.2⟩
  launch s ring hMore hFree hRing hBoth :=
    ⟨hF.launch s ring hMore hFree hRing hBoth.1,
      hG.launch s ring hMore hFree hRing hBoth.2⟩

/- Which ring is in the pass. -/
theorem active_stable (active : Option Nat) :
    RingStable config frontierSize fun s =>
      s.rings.active = active where
  same _ _ hSame hActive := by
    rw [hSame.rings]
    exact hActive
  launch _ _ _ _ _ hActive := hActive

/- Books of a ring that a launch does not change are stable. -/
theorem ringBooks_stable
    (current : Rank → Option Nat)
    (hSame : ∀ a b, SameRings a b → current b = current a)
    (hLaunch :
      ∀ s ring,
        current (s.launchRing config frontierSize ring) =
          current s) :
    RingStable config frontierSize fun s =>
      s.stopRequested = false →
        RingBooks config (current s) s where
  same a b hRings hBooks hRunning := by
    rw [hRings.stopRequested] at hRunning
    rw [hSame a b hRings]
    exact
      (hBooks hRunning).congr
        (congrArg RingQueue.state hRings.rings)
        (congrArg RingQueue.running hRings.rings)
        (congrArg RingQueue.ready hRings.rings)
        hRings.ringEvents
  launch s ring _ hFree hRing hBooks hRunning := by
    rw [hLaunch s ring]
    exact (hBooks hRunning).launchRing hFree hRing

/- The facts of the loop. -/
theorem loopRings_stable :
    RingStable config frontierSize (LoopRings config) :=
  ringBooks_stable (fun s => s.rings.active)
    (fun _ _ hSame => congrArg RingQueue.active hSame.rings)
    fun _ _ => rfl

/- The facts while a ring is in the pass. -/
theorem passRings_stable (ring : Nat) :
    RingStable config frontierSize (PassRings config ring) :=
  (active_stable none).and
    (ringBooks_stable (fun _ => some ring) (fun _ _ _ => rfl)
      fun _ _ => rfl)

/- The facts of the end. -/
theorem passed_stable :
    RingStable config frontierSize
      (Passed config frontierSize) where
  same a b hSame hPassed := by
    refine ⟨?_, fun hRunning => ?_⟩
    · rw [hSame.rings]
      exact hPassed.1
    · rw [hSame.stopRequested] at hRunning
      rcases hPassed.2 hRunning with ⟨hBooks, hNone⟩
      refine
        ⟨hBooks.congr (congrArg RingQueue.state hSame.rings)
          (congrArg RingQueue.running hSame.rings)
          (congrArg RingQueue.ready hSame.rings)
          hSame.ringEvents, ?_⟩
      rw [Rank.inFlight, hSame.rings]
      exact hNone
  launch s _ hMore _ _ hPassed :=
    absurd hMore (Nat.not_lt.mpr hPassed.1)

/- A program of ring steps keeps them. -/
theorem keeps_rings
    {α : Type}
    {program : Dispatch α}
    (hF : RingStable config frontierSize F)
    (hWithin : Within (RingSteps config frontierSize) program) :
    Triple F program (fun _ => F) anyStop :=
  any_stop (hWithin.keeps fun _ _ hSteps => hSteps F hF)

/- A program that sorts keeps them. -/
theorem keeps_loop
    {α : Type}
    {program : Dispatch α}
    (hWithin : Within Sorts program) :
    Triple (LoopRings config) program
      (fun _ => LoopRings config) anyStop :=
  keeps_rings (@loopRings_stable config 0) (steps_of_sorts hWithin)

----------------
-- Passes
----------------

/- The front of the queue enters the pass. -/
theorem launchStream3Ring_rings :
    Triple (fun s => LoopRings config s ∧ s.rings.active = none)
      launchStream3Ring (fun _ => LoopRings config) anyStop := by
  apply Triple.read
  rintro s ⟨hLoop, hNone⟩
  rcases hReady : s.rings.ready with _ | ⟨ring, rest⟩
  · exact Triple.stop fun _ _ => trivial
  · refine Triple.branch ?_ fun _ => fail_spec _
    intro _
    apply Triple.update_bind
    apply Triple.value
    rintro t rfl hRunning
    have hBooks := hLoop hRunning
    rw [hNone] at hBooks
    exact hBooks.launchStream3 hReady

/- A launch, where no ring is in the pass. -/
theorem tryLaunchStream3_rings :
    Triple (LoopRings config) (tryLaunchStream3 config fuel)
      (fun _ => LoopRings config) anyStop := by
  have hRest :
      RingStable config 0 fun s =>
        LoopRings config s ∧ s.rings.active = none :=
    loopRings_stable.and (active_stable none)
  apply Triple.read
  intro s hLoop
  refine Triple.branch ?_ ?_
  · intro _
    apply Triple.value
    rintro t rfl
    exact hLoop
  · intro hFree
    have hNone : s.rings.active = none := by
      by_contra hActive
      exact hFree (Or.inl (Option.isSome_iff_ne_none.mpr hActive))
    refine
      Triple.seq
        ((keeps_rings hRest reserveStream3Round_steps).pre ?_) ?_
    · rintro t rfl
      exact ⟨hLoop, hNone⟩
    intro _
    refine Triple.branch (fun _ => launchStream3Ring_rings) ?_
    intro _
    apply Triple.seq
      (keeps_rings hRest
        (steps_of_sorts (stream3HasWritableBuffer_within config 0)))
    intro writable
    refine Triple.branch (fun _ => launchStream3Ring_rings) ?_
    intro _
    apply Triple.seq
      (keeps_rings hRest
        (steps_of_rounds (relievePressure_within config)))
    intro relieved
    apply Triple.read
    intro t hBoth
    refine Triple.branch ?_ ?_
    · intro _
      apply Triple.value
      rintro u rfl
      exact hBoth.1
    · intro _
      apply launchStream3Ring_rings.pre
      rintro u rfl
      exact hBoth

/-
  The ring leaves the pass, and it is the one that was
  launched first.
-/
theorem completeStream3Ring_rings :
    Triple (LoopRings config)
      (completeStream3Ring config frontierSize fuel)
      (fun _ => LoopRings config) anyStop := by
  apply Triple.read
  intro s hLoop
  rcases hActive : s.rings.active with _ | ring
  · exact fail_spec _
  · have hHere :
        RingStable config frontierSize fun t =>
          LoopRings config t ∧ t.rings.active = some ring :=
      loopRings_stable.and (active_stable (some ring))
    refine
      Triple.seq
        ((keeps_rings hHere
          (steps_of_sorts
            (throwIfStreamFatalError_within config _))).pre ?_)
        ?_
    · rintro t rfl
      exact ⟨hLoop, hActive⟩
    intro _
    refine Triple.seq (R := fun _ => PassRings config ring) ?_ ?_
    · apply Triple.update
      rintro t ⟨hBooks, hRing⟩
      refine ⟨rfl, fun hRunning => ?_⟩
      have hNow := hBooks hRunning
      rw [hRing] at hNow
      exact hNow.congr rfl rfl rfl rfl
    intro _
    apply Triple.seq
      (keeps_rings (passRings_stable ring)
        (runStream5ExchangeAndCollect_steps _ _))
    intro _
    refine Triple.seq (R := fun _ => LoopRings config) ?_ ?_
    · apply Triple.update
      rintro t ⟨hNone, hBooks⟩ hRunning
      have hFreed := (hBooks hRunning).freeRing
      rw [← hNone] at hFreed
      exact hFreed
    intro _
    exact keeps_loop (appendUnlessStopped_within config)

/- The wait for a pass ends it. -/
theorem waitStream3_rings :
    Triple (LoopRings config)
      (waitStream3 config frontierSize fuel)
      (fun _ => LoopRings config) anyStop := by
  apply Triple.seq (keeps_loop (await_within config _))
  intro _
  exact completeStream3Ring_rings

/- A pass is ended where it is done. -/
theorem releaseStream3_rings :
    Triple (LoopRings config)
      (releaseStream3 config frontierSize fuel)
      (fun _ => LoopRings config) anyStop := by
  apply Triple.read
  intro s hLoop
  have hHere : ∀ t, t = s → LoopRings config t := by
    rintro t rfl
    exact hLoop
  refine Triple.branch ?_ fun _ => Triple.value hHere
  intro _
  refine
    Triple.seq ((keeps_loop (observe_within config)).pre hHere) ?_
  intro rank
  refine Triple.branch ?_ fun _ => Triple.value fun _ hNow => hNow
  intro _
  apply Triple.seq completeStream3Ring_rings
  intro _
  exact Triple.value fun _ hNow => hNow

/- The rings are released from the front of the queue. -/
theorem releaseRings_rings (rings : List Nat) :
    Triple
      (fun s =>
        s.stopRequested = false →
          RingBooks config s.rings.active s ∧
            s.rings.running = rings)
      (releaseRings config rings) (fun _ => LoopRings config)
      anyStop := by
  induction rings with
  | nil => exact Triple.value fun _ hS hRunning => (hS hRunning).1
  | cons ring rings ih =>
      apply Triple.of_state
      intro s hS
      apply observe_bind
      have hSame : SameRings s (s.observed config) :=
        SameRings.of_rounds (observed_sorts config s).toSameRounds
      have hLoop : LoopRings config (s.observed config) :=
        (@loopRings_stable config 0).same s _ hSame
          fun hRunning => (hS hRunning).1
      have hList :
          (s.observed config).stopRequested = false →
            (s.observed config).rings.running = ring :: rings := by
        intro hRunning
        rw [hSame.stopRequested] at hRunning
        rw [hSame.rings]
        exact (hS hRunning).2
      refine Triple.branch ?_ ?_
      · intro _
        apply Triple.value
        rintro t rfl
        exact hLoop
      · intro _
        apply Triple.update_bind
        refine Triple.seq (ih.pre ?_) ?_
        · rintro t rfl hRunning
          refine ⟨(hLoop hRunning).readyRing (hList hRunning), ?_⟩
          dsimp only [Rank.readyRing]
          rw [hList hRunning, List.tail_cons]
        · intro _
          exact Triple.value fun _ hNow => hNow

/- The rings that are done join the queue. -/
theorem releaseCompletedRings_rings :
    Triple (LoopRings config) (releaseCompletedRings config)
      (fun _ => LoopRings config) anyStop := by
  apply Triple.read
  intro s hLoop
  apply (releaseRings_rings _).pre
  rintro t rfl hRunning
  exact ⟨hLoop hRunning, rfl⟩

----------------
-- Stop Requests
----------------

/- Where the answer is a stop, a stop was asked for. -/
theorem refreshStopRequested_rings :
    Triple (LoopRings config) (refreshStopRequested config)
      (fun stopped s =>
        LoopRings config s ∧
          (stopped = true → s.stopRequested = true))
      anyStop := by
  apply Triple.read
  intro s hLoop
  refine Triple.branch ?_ ?_
  · intro _
    apply Triple.value
    rintro t rfl
    exact ⟨hLoop, by simp⟩
  · intro _
    refine Triple.branch ?_ ?_
    · intro hStopped
      apply Triple.value
      rintro t rfl
      exact ⟨hLoop, fun _ => hStopped⟩
    · intro hRunning
      have hSame : SameRings s (s.observed config) :=
        SameRings.of_rounds (observed_sorts config s).toSameRounds
      have hNow : LoopRings config (s.observed config) :=
        (@loopRings_stable config 0).same s _ hSame hLoop
      have hStill : (s.observed config).stopRequested = false := by
        rw [hSame.stopRequested]
        exact Bool.eq_false_of_not_eq_true hRunning
      apply observe_bind
      apply Triple.update_bind
      apply Triple.value
      rintro t rfl
      exact
        ⟨fun _ => (hNow hStill).congr rfl rfl rfl rfl,
          fun hFlag => hFlag⟩

/- After a stop the order of the rest is not claimed. -/
theorem discardReadyRings_rings :
    Triple (fun s => s.stopRequested = true)
      discardReadyRingsAfterStop
      (fun _ => LoopRings config) anyStop := by
  apply Triple.read
  intro s hStopped
  apply Triple.update_bind
  apply Triple.value
  rintro t rfl hRunning
  have hFalse : s.stopRequested = false := hRunning
  rw [hStopped] at hFalse
  cases hFalse

/- The first ring that was launched is waited for. -/
theorem waitOldestRing_rings :
    Triple (LoopRings config) (waitOldestRing config)
      (fun _ => LoopRings config) anyStop := by
  apply Triple.read
  intro s hLoop
  rcases hList : s.rings.running with _ | ⟨ring, rings⟩
  · exact Triple.stop fun _ _ => trivial
  · apply Triple.seq (any_stop (await_within config _ s))
    intro _
    refine Triple.seq (R := fun _ => LoopRings config) ?_ ?_
    · apply Triple.update
      intro t hSorts hRunning
      have hSame : SameRings s t :=
        SameRings.of_rounds hSorts.toSameRounds
      have hNow : LoopRings config t :=
        (@loopRings_stable config 0).same s t hSame hLoop
      have hFront : t.rings.running = ring :: rings := by
        rw [hSame.rings]
        exact hList
      exact (hNow hRunning).readyRing hFront
    intro _
    apply Triple.seq releaseCompletedRings_rings
    intro _
    apply Triple.seq refreshStopRequested_rings
    intro _
    exact Triple.value fun _ hPost => hPost.1

/- After a stop the waits go on. -/
theorem waitAfterStop_rings (progressed : Bool) :
    Triple
      (fun s => LoopRings config s ∧ s.stopRequested = true)
      (waitAfterStop config frontierSize fuel progressed)
      (fun _ => LoopRings config) anyStop := by
  apply Triple.read
  rintro s ⟨hLoop, hStopped⟩
  have hHere : ∀ t, t = s → LoopRings config t := by
    rintro t rfl
    exact hLoop
  refine Triple.branch (fun _ => Triple.value hHere) fun _ => ?_
  refine
    Triple.branch (fun _ => waitStream3_rings.pre hHere)
      fun _ => ?_
  refine
    Triple.branch (fun _ => waitOldestRing_rings.pre hHere)
      fun _ => ?_
  refine Triple.branch ?_ ?_
  · intro _
    refine
      Triple.seq
        ((keeps_loop
          (waitCompletedStream4Slot_within config fuel)).pre hHere)
        ?_
    intro _
    exact Triple.value fun _ hPost => hPost
  · intro _
    refine
      Triple.seq (R := fun _ => LoopRings config)
        (discardReadyRings_rings.pre ?_) ?_
    · rintro t rfl
      exact hStopped
    · intro _
      exact Triple.value fun _ hPost => hPost

/- Without progress they do too. -/
theorem waitForProgress_rings (progressed : Bool) :
    Triple (LoopRings config)
      (waitForProgress config frontierSize fuel progressed)
      (fun _ => LoopRings config) anyStop := by
  apply Triple.read
  intro s hLoop
  have hHere : ∀ t, t = s → LoopRings config t := by
    rintro t rfl
    exact hLoop
  refine Triple.branch (fun _ => Triple.value hHere) fun _ => ?_
  refine
    Triple.branch (fun _ => waitStream3_rings.pre hHere)
      fun _ => ?_
  refine
    Triple.branch (fun _ => waitOldestRing_rings.pre hHere)
      fun _ => ?_
  refine Triple.branch ?_ fun _ => Triple.value hHere
  intro _
  refine
    Triple.seq
      ((keeps_loop
        (waitCompletedStream4Slot_within config fuel)).pre hHere)
      ?_
  intro _
  exact Triple.value fun _ hPost => hPost

----------------
-- The Main Loop
----------------

/- The work that a turn starts. -/
theorem startWork_rings (progressed : Bool) :
    Triple (LoopRings config)
      (startWork config frontierSize fuel progressed)
      (fun _ => LoopRings config) anyStop := by
  apply Triple.seq
    (keeps_loop (maybeUpdateThreshold_within config fuel))
  intro updated
  apply Triple.seq
    (keeps_loop (launchPendingStream4Shards_within config))
  intro shards
  apply Triple.seq
    (keeps_rings loopRings_stable launchFreeRings_steps)
  intro rings
  apply Triple.seq tryLaunchStream3_rings
  intro stream3
  apply Triple.seq
    (keeps_loop (maybeUpdateThreshold_within config fuel))
  intro again
  exact waitForProgress_rings _

/- The rings are only dropped after a stop. -/
theorem discardIfStopped_rings (ringsCompleted : Bool) :
    Triple (LoopRings config)
      (discardIfStopped config ringsCompleted)
      (fun _ => LoopRings config) anyStop := by
  refine Triple.branch ?_ fun _ => Triple.value fun _ hLoop => hLoop
  intro _
  apply Triple.seq refreshStopRequested_rings
  intro stopped
  refine Triple.branch ?_ ?_
  · intro hTrue
    exact
      discardReadyRings_rings.pre fun _ hPost => hPost.2 hTrue
  · intro _
    exact Triple.value fun _ hPost => hPost.1

/- One turn of the loop keeps the order. -/
theorem eventLoopRound_rings :
    Triple (LoopRings config)
      (eventLoopRound config frontierSize fuel)
      (fun _ => LoopRings config) anyStop := by
  apply Triple.read
  intro s hLoop
  have hHere : ∀ t, t = s → LoopRings config t := by
    rintro t rfl
    exact hLoop
  refine Triple.branch ?_ fun _ => Triple.value hHere
  intro _
  refine
    Triple.seq
      ((keeps_loop
        (releaseCompletedStream4Slots_within config)).pre hHere)
      ?_
  intro slots
  apply Triple.seq releaseCompletedRings_rings
  intro rings
  apply Triple.seq releaseStream3_rings
  intro stream3
  apply Triple.seq (discardIfStopped_rings rings)
  intro discarded
  apply Triple.read
  intro t hNow
  refine Triple.branch ?_ ?_
  · intro hStopped
    refine Triple.seq ((waitAfterStop_rings _).pre ?_) ?_
    · rintro u rfl
      exact ⟨hNow, hStopped⟩
    · intro _
      exact Triple.value fun _ hPost => hPost
  · intro _
    refine Triple.seq ((startWork_rings _).pre ?_) ?_
    · rintro u rfl
      exact hNow
    · intro _
      exact Triple.value fun _ hPost => hPost

----------------
-- A Whole Depth
----------------

/- A rank that does not keep running has passed its rings. -/
theorem passed_of_left
    {s : Rank}
    (hLoop : LoopRings config s)
    (hLeft : keepsRunning config frontierSize s = false)
    (hRunning : s.stopRequested = false) :
    Passed config frontierSize s := by
  rw [keepsRunning, Bool.or_eq_false_iff, Bool.or_eq_false_iff,
    Bool.or_eq_false_iff, hRunning] at hLeft
  rcases hLeft with ⟨⟨⟨hCursor, hIdle⟩, hActive⟩, -⟩
  have hNone : s.rings.active = none := by
    cases hCase : s.rings.active with
    | none => rfl
    | some ring =>
        rw [hCase] at hActive
        cases hActive
  have hBooks := hLoop hRunning
  rw [hNone] at hBooks
  refine ⟨?_, fun _ => ⟨hBooks, hBooks.inFlight_eq_nil hIdle⟩⟩
  simpa using hCursor

/- The whole depth. -/
theorem runDepth_rings :
    Triple (LoopRings config) (runDepth config frontierSize fuel)
      (fun _ s =>
        s.stopRequested = false → Passed config frontierSize s)
      anyStop := by
  refine
    Triple.branch (fun _ => Triple.stop fun _ _ => trivial)
      fun _ => ?_
  refine Triple.seq (keeps_rings (@loopRings_stable config 0) ?_) ?_
  · exact
      Within.branch (allReduce_steps _ _)
        (Within.value ringSteps_frame _)
  intro globalRounds
  refine Triple.seq (R := fun _ => LoopRings config) ?_ ?_
  · exact
      keeps_rings (@loopRings_stable config 0)
        (update_steps fun _ => ⟨rfl, rfl, rfl, rfl⟩)
  intro _
  apply Triple.seq
    (keeps_rings loopRings_stable launchFreeRings_steps)
  intro _
  have hLoop :
      Triple (LoopRings config)
        (Hoare.repeatUntil .stalled fuel
          (eventLoopRound config frontierSize fuel))
        (fun _ s =>
          LoopRings config s ∧
            keepsRunning config frontierSize s = false)
        anyStop := by
    refine Triple.repeatUntil ?_ fun _ _ => trivial
    refine
      Triple.conseq
        (eventLoopRound_rings.and eventLoopRound_left)
        (fun _ hNow => ⟨hNow, trivial⟩) ?_ fun _ _ _ => trivial
    rintro done s ⟨hNow, hLeft⟩
    cases done with
    | true => exact ⟨hNow, hLeft rfl⟩
    | false => exact hNow
  apply Triple.seq hLoop
  intro _
  apply Triple.read
  rintro s ⟨hNow, hLeft⟩
  refine Triple.branch ?_ ?_
  · intro hStopped
    refine
      Triple.conseq (waitAllStream4Slots_stopped config fuel)
        ?_ ?_ fun _ _ _ => trivial
    · rintro t rfl
      exact hStopped
    · intro _ t hStill hRunning
      rw [hStill] at hRunning
      cases hRunning
  · intro hRunning
    refine
      Triple.conseq
        (keeps_rings passed_stable (finishDepth_steps globalRounds))
        ?_ (fun _ _ hPassed _ => hPassed) fun _ _ _ => trivial
    rintro t rfl
    exact
      passed_of_left hNow hLeft
        (Bool.eq_false_of_not_eq_true hRunning)

end Passes

/-
  The rings pass stream 3 in the order of their launches. When a
  depth returns without a stop request, every launch has passed
  once, and there are as many as the frontier needs.
-/
theorem runDepth_passes_in_order
    (config : DispatchConfig)
    (frontierSize fuel : Nat)
    (schedule : List (List DeviceEvent))
    (replies : List Reply) :
    Triple (fun s => s = initialRank config schedule replies)
      (runDepth config frontierSize fuel)
      (fun _ s =>
        s.stopRequested = false →
          Fifo.replay [] s.ringHistory = some [] ∧
            Fifo.left s.ringHistory =
              Fifo.entered s.ringHistory ∧
            (Fifo.left s.ringHistory).length =
              config.localExchangeRounds frontierSize)
      anyStop := by
  have hBoth :=
    (@runDepth_rings config frontierSize fuel).and
      (@runDepth_launches_spec config frontierSize fuel)
  refine Triple.conseq hBoth ?_ ?_ fun _ _ _ => trivial
  · rintro s rfl
    exact
      ⟨fun _ => initialRank_ringBooks config schedule replies,
        initialRank_launchBooks config frontierSize schedule
          replies⟩
  · rintro _ s ⟨hPassed, hLaunches, -⟩ hRunning
    rcases hPassed hRunning with ⟨hCursor, hDone⟩
    rcases hDone hRunning with ⟨hBooks, hNone⟩
    have hReplay := hBooks.history
    rw [hNone] at hReplay
    have hOrder := Fifo.append_entered_eq hReplay
    rw [List.nil_append, List.append_nil] at hOrder
    refine ⟨hReplay, hOrder.symm, ?_⟩
    rw [← hOrder, hLaunches.entered,
      hLaunches.launches_eq hCursor]

end Dispatcher

end BeamSearch
