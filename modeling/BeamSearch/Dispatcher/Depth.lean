import BeamSearch.Dispatcher.Sorting

/-
  What a depth leaves behind when it returns.

  The rings, the rounds and the collectives are steps that the
  banks and the slots do not see. Between the rounds of the
  event loop stream 3 is quiet unless a ring is in it, so that
  no list is lost and no launch meets an unread one.

  Main declarations:
    * `Unseen`, `Stable`
    * `LoopBooks`, `eventLoopRound_spec`
    * `Flushed`, `flushRounds_spec`
    * `runDepth_spec`, `runDepth_sorts_every_row`
-/

namespace BeamSearch

open Stream3
open Hoare

namespace Dispatcher

----------------
-- Steps Stream 4 Does Not See
----------------

/- Neither the banks nor the slots change, nor does a stop. -/
structure Unseen (a b : Rank) : Prop where
  stream4 : b.stream4 = a.stream4
  banks : b.device.banks = a.device.banks
  list : b.device.readyShardList = a.device.readyShardList
  stage : b.device.stage = a.device.stage
  jobs : b.device.slotJob = a.device.slotJob
  events : b.trace.bankEvents = a.trace.bankEvents
  kept : b.trace.listOverwritten = a.trace.listOverwritten
  copies : b.copies = a.copies
  active : b.rings.active = a.rings.active
  stopRequested : b.stopRequested = a.stopRequested

/- Stream 3 is quiet unless a ring is in it. -/
def Rank.Ready (rank : Rank) : Prop :=
  rank.rings.active = none → rank.Quiet

/- After a stop request a list may be left unread. -/
def Rank.Rests (rank : Rank) : Prop :=
  rank.rings.active = none → rank.stopRequested = false →
    rank.Quiet

/- Kept by the device and by what Stream 4 does not see. -/
structure Stable
    (config : DispatchConfig)
    (F : Rank → Prop) : Prop where
  observed : ∀ s, F s → F (s.observed config)
  unseen : ∀ s t, Unseen s t → F s → F t

/- Any stop may come; nothing is said of it. -/
def anyStop (_ : Stop) (_ : Rank) : Prop :=
  True

section Depth

variable {config : DispatchConfig}
variable {frontierSize fuel : Nat}
variable {F G : Rank → Prop}

/- The books of the banks read none of what changed. -/
theorem BankBooks.unseen
    {taken : List Nat}
    {phases : Nat → ShardPhase}
    {a b : Rank}
    (hBooks : BankBooks config taken phases a)
    (hUnseen : Unseen a b) :
    BankBooks config taken phases b := by
  have hWaiting : b.waiting taken = a.waiting taken := by
    rw [Rank.waiting, hUnseen.list, hUnseen.stream4, Rank.waiting]
  constructor
  case replay =>
    rw [hUnseen.events]
    exact hBooks.replay
  case nodup =>
    rw [hWaiting]
    exact hBooks.nodup
  case waiting =>
    rw [hWaiting]
    exact hBooks.waiting
  case sorting =>
    rw [hUnseen.jobs]
    exact hBooks.sorting
  case jobs =>
    rw [hUnseen.jobs]
    exact hBooks.jobs
  case processing =>
    rw [hUnseen.banks]
    exact hBooks.processing
  case dirty =>
    rw [hUnseen.banks, hUnseen.events]
    exact hBooks.dirty
  case capacity =>
    rw [hUnseen.banks]
    exact hBooks.capacity
  case inside => exact hBooks.inside
  case building =>
    rw [hUnseen.stage, hUnseen.list]
    exact hBooks.building
  case kept =>
    rw [hUnseen.kept]
    exact hBooks.kept
  case copied =>
    rw [hUnseen.copies]
    exact hBooks.copied

/- The books are kept by the device and by unseen steps. -/
theorem books_stable :
    Stable config (Stream4Books config [] []) where
  observed _ hBooks := hBooks.observed
  unseen s t hUnseen hBooks := by
    refine ⟨?_, ?_⟩
    · rcases hBooks.banks with ⟨phases, hBanks⟩
      exact ⟨phases, hBanks.unseen hUnseen⟩
    · refine hBooks.slots.congr hUnseen.stream4 ?_
      intro slot physical hJob
      rw [← hUnseen.jobs]
      exact hJob

/- Two such facts together. -/
theorem Stable.and
    (hF : Stable config F)
    (hG : Stable config G) :
    Stable config fun s => F s ∧ G s where
  observed s hBoth := ⟨hF.observed s hBoth.1, hG.observed s hBoth.2⟩
  unseen s t hUnseen hBoth :=
    ⟨hF.unseen s t hUnseen hBoth.1, hG.unseen s t hUnseen hBoth.2⟩

/- Nothing was appended. -/
theorem Rank.Quiet.unseen
    {s t : Rank}
    (hQuiet : s.Quiet)
    (hUnseen : Unseen s t) :
    t.Quiet :=
  ⟨hUnseen.stage.trans hQuiet.idle, hUnseen.list.trans hQuiet.list⟩

/- The device appends nothing unless it was told to. -/
theorem quiet_stable : Stable config Rank.Quiet where
  observed _ hQuiet := hQuiet.observed
  unseen _ _ hUnseen hQuiet := hQuiet.unseen hUnseen

/- An idle stream stays idle. -/
theorem idle_stable :
    Stable config fun s => s.device.stage = .idle where
  observed _ hIdle := observed_idle hIdle
  unseen _ _ hUnseen hIdle := hUnseen.stage.trans hIdle

/- Sorting keeps what was quiet. -/
theorem quiet_of_sorts
    (s t : Rank)
    (hSorts : Sorts s t)
    (hQuiet : s.Quiet) :
    t.Quiet :=
  hSorts.quiet hQuiet

/- Sorting keeps what was ready. -/
theorem ready_of_sorts
    (s t : Rank)
    (hSorts : Sorts s t)
    (hReady : s.Ready) :
    t.Ready := by
  intro hNone
  rw [hSorts.rings] at hNone
  exact hSorts.quiet (hReady hNone)

/- Sorting keeps what rests. -/
theorem rests_of_sorts
    (s t : Rank)
    (hSorts : Sorts s t)
    (hRests : s.Rests) :
    t.Rests := by
  intro hNone hStop
  rw [hSorts.rings] at hNone
  rw [hSorts.stopRequested] at hStop
  exact hSorts.quiet (hRests hNone hStop)

/- A ready rank stays so while the device goes on. -/
theorem ready_stable : Stable config Rank.Ready where
  observed s hReady :=
    ready_of_sorts _ _ (observed_sorts config s) hReady
  unseen _ _ hUnseen hReady hNone :=
    (hReady (hUnseen.active.symm.trans hNone)).unseen hUnseen

/- So does a resting one. -/
theorem rests_stable : Stable config Rank.Rests where
  observed s hRests :=
    rests_of_sorts _ _ (observed_sorts config s) hRests
  unseen _ _ hUnseen hRests hNone hStop :=
    (hRests (hUnseen.active.symm.trans hNone)
      (hUnseen.stopRequested.symm.trans hStop)).unseen hUnseen

/- A triple may say less of its stops. -/
theorem any_stop
    {α : Type}
    {program : Dispatch α}
    {P : Rank → Prop}
    {Q : α → Rank → Prop}
    {E : Stop → Rank → Prop}
    (hTriple : Triple P program Q E) :
    Triple P program Q anyStop :=
  hTriple.stop_mono fun _ _ _ => trivial

/- A program that fails has every result. -/
theorem fail_spec
    {α : Type}
    {P : Rank → Prop}
    {Q : α → Rank → Prop}
    (what : String) :
    Triple P (fail what) Q anyStop :=
  Triple.stop fun _ _ => trivial

/- A program of the slots keeps what sorting keeps. -/
theorem keeps_sorts
    {α : Type}
    {program : Dispatch α}
    {E : Stop → Rank → Prop}
    (hKept : ∀ s t, Sorts s t → F s → F t)
    (hTriple :
      Triple (Stream4Books config [] []) program
        (fun _ => Stream4Books config [] []) E)
    (hWithin : Within Sorts program) :
    Triple (fun s => Stream4Books config [] [] s ∧ F s) program
      (fun _ s => Stream4Books config [] [] s ∧ F s) anyStop :=
  (hTriple.and (hWithin.keeps hKept)).stop_mono
    fun _ _ _ => trivial

----------------
-- Rings And Rounds
----------------

/- A step that changes nothing of what the fact reads. -/
theorem update_spec
    {f : Rank → Rank}
    {E : Stop → Rank → Prop}
    (hF : Stable config F)
    (hUnseen : ∀ s, Unseen s (f s)) :
    Triple F (modify f : Dispatch PUnit) (fun _ => F) E :=
  Triple.update fun s hS => hF.unseen s _ (hUnseen s) hS

/- An answer is taken from the other ranks. -/
theorem answer_spec (hF : Stable config F) :
    Triple F (answer config) (fun _ => F) anyStop := by
  apply Triple.of_state
  intro s hS
  apply observe_bind
  have hNow := hF.observed s hS
  rcases (s.observed config).replies with _ | ⟨reply, replies⟩
  · exact Triple.stop fun _ _ => trivial
  · apply Triple.update_bind
    apply Triple.value
    rintro t rfl
    exact
      hF.unseen (s.observed config) _
        ⟨rfl, rfl, rfl, rfl, rfl, rfl, rfl, rfl, rfl, rfl⟩ hNow

/- A record is kept. -/
theorem record_spec
    {E : Stop → Rank → Prop}
    (hF : Stable config F)
    (event : CollectiveEvent) :
    Triple F (modify (Rank.record event) : Dispatch PUnit)
      (fun _ => F) E :=
  update_spec hF fun _ =>
    ⟨rfl, rfl, rfl, rfl, rfl, rfl, rfl, rfl, rfl, rfl⟩

/- A collective is two records and an answer. -/
theorem allReduce_spec
    (hF : Stable config F)
    (collective : Collective)
    (contribution : Nat) :
    Triple F (allReduce config collective contribution)
      (fun _ => F) anyStop := by
  apply Triple.seq (record_spec hF _)
  intro _
  apply Triple.seq (answer_spec hF)
  intro reply
  apply Triple.seq (record_spec hF _)
  intro _
  exact Triple.value fun _ hS => hS

/- A ring is launched; the banks see none of it. -/
theorem launchRingIfFree_spec
    (hF : Stable config F)
    (ring : Nat) :
    Triple F (launchRingIfFree config frontierSize ring)
      (fun _ => F) anyStop := by
  apply Triple.read
  intro s hS
  refine Triple.branch ?_ ?_
  · intro _
    apply observe_bind
    have hNow := hF.observed s hS
    refine Triple.branch ?_ ?_
    · intro _
      apply Triple.value
      rintro t rfl
      exact hNow
    · intro _
      apply Triple.update_bind
      apply Triple.value
      rintro t rfl
      exact
        hF.unseen (s.observed config) _
          ⟨rfl, rfl, rfl, rfl, rfl, rfl, rfl, rfl, rfl, rfl⟩ hNow
  · intro _
    apply Triple.value
    rintro t rfl
    exact hS

/- All rings are tried. -/
theorem launchFreeRings_spec (hF : Stable config F) :
    Triple F (launchFreeRings config frontierSize)
      (fun _ => F) anyStop := by
  apply Triple.read
  intro s hS
  refine Triple.branch ?_ ?_
  · intro _
    apply Triple.value
    rintro t rfl
    exact hS
  · intro _
    refine
      Triple.pre
        (Triple.anyOf fun ring _ => launchRingIfFree_spec hF ring)
        ?_
    rintro t rfl
    exact hS

/- A ring is filled where one is free. -/
theorem prefill_spec (hF : Stable config F) :
    Triple F (prefill config frontierSize) (fun _ => F)
      anyStop := by
  refine Triple.branch ?_ ?_
  · intro _
    apply Triple.seq (launchFreeRings_spec hF)
    intro _
    exact Triple.value fun _ hS => hS
  · intro _
    exact Triple.value fun _ hS => hS

/- The check reads the rank. -/
theorem checkRound_spec
    (ring : Nat)
    (zeroSend : Bool) :
    Triple F (checkRound config ring zeroSend) (fun _ => F)
      anyStop := by
  apply Triple.read
  intro s hS
  refine Triple.branch (fun _ => fail_spec _) fun _ => ?_
  refine Triple.branch (fun _ => fail_spec _) fun _ => ?_
  refine Triple.branch (fun _ => fail_spec _) fun _ => ?_
  apply Triple.value
  rintro t rfl
  exact hS

/- The counts of a round. -/
theorem exchangeCounts_spec (hF : Stable config F) :
    Triple F (exchangeCounts config frontierSize) (fun _ => F)
      anyStop := by
  apply Triple.seq (record_spec hF _)
  intro _
  apply Triple.seq (prefill_spec hF)
  intro _
  apply Triple.seq (answer_spec hF)
  intro reply
  apply Triple.seq (record_spec hF _)
  intro _
  exact
    Triple.branch (fun _ => fail_spec _) fun _ =>
      Triple.value fun _ hS => hS

/- The rows of a round. -/
theorem exchangePayload_spec (hF : Stable config F) :
    Triple F (exchangePayload config frontierSize) (fun _ => F)
      anyStop := by
  apply Triple.seq (record_spec hF _)
  intro _
  apply Triple.seq (prefill_spec hF)
  intro _
  apply Triple.seq (answer_spec hF)
  intro _
  exact record_spec hF _

/- A ring that was filled is put in the queue. -/
theorem readyRing_unseen
    (ring : Nat)
    (s : Rank) :
    Unseen s (s.readyRing ring) :=
  ⟨rfl, rfl, rfl, rfl, rfl, rfl, rfl, rfl, rfl, rfl⟩

/- The rings that are done. -/
theorem releaseRings_spec
    (hF : Stable config F)
    (rings : List Nat) :
    Triple F (releaseRings config rings) (fun _ => F)
      anyStop := by
  induction rings with
  | nil => exact Triple.value fun _ hS => hS
  | cons ring rings ih =>
      apply Triple.of_state
      intro s hS
      apply observe_bind
      have hNow := hF.observed s hS
      refine Triple.branch ?_ ?_
      · intro _
        apply Triple.value
        rintro t rfl
        exact hNow
      · intro _
        apply Triple.update_bind
        refine Triple.seq (ih.pre ?_) ?_
        · rintro t rfl
          exact hF.unseen _ _ (readyRing_unseen ring _) hNow
        · intro _
          exact Triple.value fun _ hS => hS

/- Those of the running ones. -/
theorem releaseCompletedRings_spec (hF : Stable config F) :
    Triple F (releaseCompletedRings config) (fun _ => F)
      anyStop := by
  apply Triple.read
  intro s hS
  refine (releaseRings_spec hF _).pre ?_
  rintro t rfl
  exact hS

----------------
-- Slots And Updates
----------------

/- The books through a release. -/
theorem release_books
    {E : Stop → Rank → Prop} :
    Triple (Stream4Books config [] [])
      (releaseCompletedStream4Slots config)
      (fun _ => Stream4Books config [] []) E :=
  Triple.of_state fun _ hBooks =>
    (releaseCompletedStream4Slots_spec hBooks).post
      fun _ _ hPost => hPost.1.books

/- The books through the waits; no slot is busy after them. -/
theorem waitAll_books :
    Triple (Stream4Books config [] [])
      (waitAllStream4Slots config fuel)
      (fun _ s =>
        Stream4Books config [] [] s ∧ s.stream4.busySlots = [])
      expectedStop :=
  Triple.of_state fun _ hBooks =>
    (waitAllStream4Slots_spec hBooks).post fun _ _ hPost =>
      ⟨hPost.1.books, hPost.2⟩

/- The books through one wait. -/
theorem waitCompleted_books :
    Triple (Stream4Books config [] [])
      (waitCompletedStream4Slot config fuel)
      (fun _ => Stream4Books config [] []) expectedStop :=
  Triple.of_state fun _ hBooks =>
    (waitCompletedStream4Slot_spec hBooks).post
      fun _ _ hPost => hPost.1.books

/- The books through the launches. -/
theorem launchPending_books
    {E : Stop → Rank → Prop}
    (hSlots : 0 < config.stream4ActiveSortSlots) :
    Triple (Stream4Books config [] [])
      (launchPendingStream4Shards config)
      (fun _ => Stream4Books config [] []) E :=
  (launchPendingStream4Shards_spec hSlots).post
    fun _ _ hPost => hPost.1

/- The books through an update of one rank alone. -/
theorem forcePeriodicThresholdUpdate_books :
    Triple (Stream4Books config [] [])
      (forcePeriodicThresholdUpdate config fuel)
      (fun _ => Stream4Books config [] []) anyStop := by
  apply Triple.read
  intro s hBooks
  refine Triple.branch ?_ ?_
  · intro _
    apply Triple.value
    rintro t rfl
    exact hBooks
  · intro _
    refine Triple.branch (fun _ => fail_spec _) fun _ => ?_
    refine Triple.seq ((any_stop waitAll_books).pre ?_) ?_
    · rintro t rfl
      exact hBooks
    · intro _
      exact Triple.update fun _ hPost => hPost.1.clearThresholdJobs

/- The books through the update that is due. -/
theorem maybeUpdateThreshold_books
    (hSlots : 0 < config.stream4ActiveSortSlots) :
    Triple (Stream4Books config [] [])
      (maybeUpdateThreshold config fuel)
      (fun _ => Stream4Books config [] []) anyStop := by
  apply Triple.read
  intro s hBooks
  refine Triple.branch ?_ ?_
  · intro _
    apply Triple.value
    rintro t rfl
    exact hBooks
  · intro _
    refine
      Triple.seq
        ((any_stop (drainPendingStream4Shards_spec hSlots)).pre ?_)
        ?_
    · rintro t rfl
      exact hBooks
    · intro _
      refine
        Triple.seq
          (forcePeriodicThresholdUpdate_books.pre
            fun _ hDrained => hDrained.books)
          ?_
      intro _
      exact Triple.value fun _ hPost => hPost

/- An update the ranks agree on flushes twice when exact. -/
theorem maybeRunStream5ThresholdUpdate_spec
    (hSlots : 0 < config.stream4ActiveSortSlots)
    (forceLocalRequest capacityPressure : Bool) :
    Triple (fun s => Stream4Books config [] [] s ∧ s.Quiet)
      (maybeRunStream5ThresholdUpdate config fuel
        forceLocalRequest capacityPressure)
      (fun _ s => Stream4Books config [] [] s ∧ s.Quiet)
      anyStop := by
  have hStable :
      Stable config fun s =>
        Stream4Books config [] [] s ∧ s.Quiet :=
    books_stable.and quiet_stable
  have hFlush :
      ∀ exact : Bool,
        Triple (fun s => Stream4Books config [] [] s ∧ s.Quiet)
          (pressureFlushIf config fuel exact)
          (fun _ s => Stream4Books config [] [] s ∧ s.Quiet)
          anyStop := by
    intro exact
    refine Triple.branch ?_ ?_
    · intro _
      exact
        (any_stop (pressureFlushStream4_spec hSlots)).post
          fun _ _ hPost => ⟨hPost.1.books, hPost.2.1⟩
    · intro _
      exact Triple.value fun _ hPre => hPre
  refine Triple.branch ?_ ?_
  · intro _
    apply Triple.read
    intro s hBoth
    refine Triple.seq ((allReduce_spec hStable _ _).pre ?_) ?_
    · rintro t rfl
      exact hBoth
    · intro globalRequest
      refine Triple.branch ?_ ?_
      · intro _
        exact Triple.value fun _ hPre => hPre
      · intro _
        apply Triple.seq (hFlush _)
        intro _
        apply Triple.seq (allReduce_spec hStable _ _)
        intro _
        apply Triple.seq (hFlush _)
        intro _
        apply Triple.update
        rintro t ⟨hBooks, hQuiet⟩
        exact
          ⟨hBooks.clearThresholdJobs, hQuiet.idle, hQuiet.list⟩
  · intro _
    exact Triple.value fun _ hPre => hPre

/- The room of a round is made without appending a row. -/
theorem reserveStream3Round_spec
    (hSlots : 0 < config.stream4ActiveSortSlots) :
    Triple (fun s => Stream4Books config [] [] s ∧ s.Quiet)
      (reserveStream3Round config fuel)
      (fun _ s => Stream4Books config [] [] s ∧ s.Quiet)
      anyStop := by
  have hStable :
      Stable config fun s =>
        Stream4Books config [] [] s ∧ s.Quiet :=
    books_stable.and quiet_stable
  have hWritable :
      Triple (fun s => Stream4Books config [] [] s ∧ s.Quiet)
        (stream3HasWritableBuffer config config.roundCapacity)
        (fun _ s => Stream4Books config [] [] s ∧ s.Quiet)
        anyStop :=
    keeps_sorts quiet_of_sorts
      (stream3HasWritableBuffer_spec (E := anyStop) _)
      (stream3HasWritableBuffer_within config _)
  apply Triple.read
  intro s hBoth
  refine Triple.branch ?_ ?_
  · intro _
    apply Triple.value
    rintro t rfl
    exact hBoth
  · intro _
    refine
      Triple.seq
        ((keeps_sorts quiet_of_sorts (release_books (E := anyStop))
          (releaseCompletedStream4Slots_within config)).pre ?_)
        ?_
    · rintro t rfl
      exact hBoth
    · intro _
      apply Triple.seq hWritable
      intro room
      apply Triple.seq
        (maybeRunStream5ThresholdUpdate_spec hSlots _ _)
      intro _
      refine
        Triple.seq
          (R := fun _ s => Stream4Books config [] [] s ∧ s.Quiet)
          ?_ ?_
      · refine Triple.branch ?_ ?_
        · intro _
          exact Triple.value fun _ hPre => hPre
        · intro _
          apply Triple.seq hWritable
          intro late
          exact
            Triple.branch
              (fun _ => Triple.value fun _ hPre => hPre)
              fun _ => fail_spec _
      · intro _
        exact
          update_spec hStable fun _ =>
            ⟨rfl, rfl, rfl, rfl, rfl, rfl, rfl, rfl, rfl, rfl⟩

----------------
-- Work Of Stream 3
----------------

/- When the wait ends, the stream is idle. -/
theorem await_idle :
    Triple (Stream4Books config [] [])
      (await config Rank.stream3Done)
      (fun _ s =>
        Stream4Books config [] [] s ∧ s.device.stage = .idle)
      anyStop := by
  refine
    Triple.post
      (any_stop
        (await_spec (fun _ hBooks => hBooks.observed)
          Rank.stream3Done))
      ?_
  rintro _ s ⟨hBooks, hDone⟩
  exact ⟨hBooks, of_decide_eq_true hDone⟩

/- Stream 3 runs to its end and its list is consumed. -/
theorem stage_spec
    {α : Type}
    {Q : α → Rank → Prop}
    {next : Bool → Dispatch α}
    (phase : String)
    (hNext :
      ∀ queued,
        Triple (fun s => Stream4Books config [] [] s ∧ s.Quiet)
          (next queued) Q anyStop) :
    Triple (Stream4Books config [] [])
      (do
        await config Rank.stream3Done
        throwIfStreamFatalError config phase
        let queued ← appendStream3ReadyQueue config
        next queued)
      Q anyStop := by
  apply Triple.seq await_idle
  intro _
  refine
    Triple.seq
      (any_stop (throwIfStreamFatalError_spec ?_ phase)) ?_
  · exact (books_stable.and idle_stable).observed
  · intro _
    apply Triple.seq (appendStream3ReadyQueue_spec)
    exact hNext

/-
  The received rows are in the banks when the stream is idle.
-/
theorem collectRemote_spec
    (hBooks : ∀ s, F s → Stream4Books config [] [] s)
    (hQuiet : ∀ s, Stream4Books config [] [] s → s.Quiet → F s)
    (rows : List Nat) :
    Triple F (collectRemote config rows) (fun _ => F)
      anyStop := by
  refine Triple.branch ?_ ?_
  · intro _
    exact Triple.value fun _ hS => hS
  · intro _
    refine
      Triple.seq (R := fun _ => Stream4Books config [] []) ?_ ?_
    · apply Triple.update
      intro s hS
      exact (hBooks s hS).setStage fun hBuilds => by cases hBuilds
    · intro _
      apply stage_spec
      intro _
      exact Triple.value fun s hBoth => hQuiet s hBoth.1 hBoth.2

/- A round keeps what holds between its parts. -/
theorem runStream5ExchangeAndCollect_spec
    (hF : Stable config F)
    (hBooks : ∀ s, F s → Stream4Books config [] [] s)
    (hQuiet : ∀ s, Stream4Books config [] [] s → s.Quiet → F s)
    (ring : Nat)
    (zeroSend : Bool)
    (hReserve :
      Triple F (reserveForZeroSend config fuel zeroSend)
        (fun _ => F) anyStop) :
    Triple F
      (runStream5ExchangeAndCollect config frontierSize fuel ring
        zeroSend)
      (fun _ => F) anyStop := by
  refine Triple.branch ?_ ?_
  · intro _
    apply Triple.seq hReserve
    intro _
    apply Triple.seq (checkRound_spec _ _)
    intro _
    apply Triple.seq (exchangeCounts_spec hF)
    intro rows
    apply Triple.seq (exchangePayload_spec hF)
    intro _
    apply Triple.seq (collectRemote_spec hBooks hQuiet rows)
    intro _
    exact
      update_spec hF fun _ =>
        ⟨rfl, rfl, rfl, rfl, rfl, rfl, rfl, rfl, rfl, rfl⟩
  · intro _
    exact Triple.value fun _ hS => hS

/-
  The pass of a ring ends: its rows are in the banks, and the
  ring is free.
-/
theorem completeStream3Ring_spec :
    Triple
      (fun s =>
        Stream4Books config [] [] s ∧ s.device.stage = .idle)
      (completeStream3Ring config frontierSize fuel)
      (fun _ s => Stream4Books config [] [] s ∧ s.Rests)
      anyStop := by
  let Idle : Rank → Prop := fun s =>
    Stream4Books config [] [] s ∧ s.device.stage = .idle
  have hStable : Stable config Idle :=
    books_stable.and idle_stable
  apply Triple.read
  rintro s hIdle
  rcases s.rings.active with _ | ring
  · exact fail_spec _
  · refine
      Triple.seq (R := fun _ => Idle)
        (Triple.pre
          (any_stop
            (throwIfStreamFatalError_spec hStable.observed _))
          ?_)
        ?_
    · rintro t rfl
      exact hIdle
    · intro _
      refine Triple.seq (R := fun _ => Idle) ?_ ?_
      · apply Triple.update
        rintro t ⟨hBooks, hStage⟩
        exact ⟨hBooks.congr rfl rfl rfl rfl rfl, hStage⟩
      · intro _
        refine
          Triple.seq
            (runStream5ExchangeAndCollect_spec hStable
              (fun _ hBoth => hBoth.1)
              (fun _ hBooks hQuiet => ⟨hBooks, hQuiet.idle⟩)
              ring false ?_)
            ?_
        · exact
            Triple.branch (fun hTrue => by cases hTrue)
              fun _ => Triple.value fun _ hS => hS
        · intro _
          refine Triple.seq (R := fun _ => Idle) ?_ ?_
          · exact
              update_spec hStable fun _ =>
                ⟨rfl, rfl, rfl, rfl, rfl, rfl, rfl, rfl, rfl, rfl⟩
          · intro _
            apply Triple.read
            intro t hBoth
            refine Triple.branch ?_ ?_
            · intro hStopped
              apply Triple.value
              rintro u rfl
              refine ⟨hBoth.1, fun _ hRunning => ?_⟩
              rw [hStopped] at hRunning
              cases hRunning
            · intro _
              refine
                Triple.seq
                  ((appendStream3ReadyQueue_spec
                    (E := anyStop)).pre ?_)
                  ?_
              · rintro u rfl
                exact hBoth
              · intro _
                exact
                  Triple.value fun _ hPost =>
                    ⟨hPost.1, fun _ _ => hPost.2⟩

/- A launch leaves the rank ready: the device appends now. -/
theorem launchStream3Ring_spec :
    Triple (fun s => Stream4Books config [] [] s ∧ s.Quiet)
      launchStream3Ring
      (fun _ s => Stream4Books config [] [] s ∧ s.Ready)
      anyStop := by
  apply Triple.read
  rintro s ⟨hBooks, hQuiet⟩
  rcases s.rings.ready with _ | ⟨ring, rings⟩
  · exact Triple.stop fun _ _ => trivial
  · refine Triple.branch ?_ fun _ => fail_spec _
    intro _
    apply Triple.update_bind
    apply Triple.value
    rintro t rfl
    have hStaged :
        Stream4Books config [] [] (s.setStage .collectLocal) :=
      hBooks.setStage fun _ => hQuiet.list
    refine ⟨hStaged.congr rfl rfl rfl rfl rfl, fun hNone => ?_⟩
    cases hNone

/- Pressure is relieved while nothing is appended. -/
theorem relievePressure_spec
    (hSlots : 0 < config.stream4ActiveSortSlots) :
    Triple (fun s => Stream4Books config [] [] s ∧ s.Quiet)
      (relievePressure config)
      (fun _ s => Stream4Books config [] [] s ∧ s.Quiet)
      anyStop := by
  refine
    Triple.seq (R := fun _ => Stream4Books config [] []) ?_ ?_
  · apply Triple.update
    rintro s ⟨hBooks, hQuiet⟩
    exact hBooks.setStage fun _ => hQuiet.list
  · intro _
    apply stage_spec
    intro queued
    apply Triple.seq
      (keeps_sorts quiet_of_sorts
        (launchPending_books (E := anyStop) hSlots)
        (launchPendingStream4Shards_within config))
    intro launched
    exact Triple.value fun _ hPost => hPost

/- A launch, where no ring is in the pass. -/
theorem tryLaunchStream3_spec
    (hSlots : 0 < config.stream4ActiveSortSlots) :
    Triple (fun s => Stream4Books config [] [] s ∧ s.Ready)
      (tryLaunchStream3 config fuel)
      (fun _ s => Stream4Books config [] [] s ∧ s.Ready)
      anyStop := by
  apply Triple.read
  rintro s ⟨hBooks, hReady⟩
  refine Triple.branch ?_ ?_
  · intro _
    apply Triple.value
    rintro t rfl
    exact ⟨hBooks, hReady⟩
  · intro hFree
    have hNone : s.rings.active = none := by
      by_contra hActive
      exact hFree (Or.inl (Option.isSome_iff_ne_none.mpr hActive))
    refine
      Triple.seq ((reserveStream3Round_spec hSlots).pre ?_) ?_
    · rintro t rfl
      exact ⟨hBooks, hReady hNone⟩
    · intro _
      refine Triple.branch (fun _ => launchStream3Ring_spec) ?_
      intro _
      apply Triple.seq
        (keeps_sorts quiet_of_sorts
          (stream3HasWritableBuffer_spec (E := anyStop) 0)
          (stream3HasWritableBuffer_within config 0))
      intro writable
      refine Triple.branch (fun _ => launchStream3Ring_spec) ?_
      intro _
      apply Triple.seq (relievePressure_spec hSlots)
      intro relieved
      apply Triple.read
      rintro t ⟨hAfter, hQuiet⟩
      refine Triple.branch ?_ ?_
      · intro _
        apply Triple.value
        rintro u rfl
        exact ⟨hAfter, fun _ => hQuiet⟩
      · intro _
        refine launchStream3Ring_spec.pre ?_
        rintro u rfl
        exact ⟨hAfter, hQuiet⟩

----------------
-- The Main Loop
----------------

/- What holds between the rounds of the event loop. -/
def LoopBooks
    (config : DispatchConfig)
    (rank : Rank) : Prop :=
  Stream4Books config [] [] rank ∧ rank.Rests

/- What the loop keeps is kept by the device too. -/
theorem loopBooks_stable : Stable config (LoopBooks config) :=
  books_stable.and rests_stable

/- A stop that is seen changes no bank. -/
theorem refreshStopRequested_spec :
    Triple (LoopBooks config) (refreshStopRequested config)
      (fun _ => LoopBooks config) anyStop := by
  apply Triple.read
  intro s hLoop
  refine Triple.branch ?_ ?_
  · intro _
    apply Triple.value
    rintro t rfl
    exact hLoop
  · intro _
    refine Triple.branch ?_ ?_
    · intro _
      apply Triple.value
      rintro t rfl
      exact hLoop
    · intro hRunning
      apply observe_bind
      have hNow := loopBooks_stable.observed s hLoop
      apply Triple.update_bind
      apply Triple.value
      rintro t rfl
      refine
        ⟨hNow.1.congr rfl rfl rfl rfl rfl, fun hNone _ => ?_⟩
      have hStill : (s.observed config).stopRequested = false := by
        rw [(observed_sorts config s).stopRequested]
        exact Bool.eq_false_of_not_eq_true hRunning
      have hQuiet := hNow.2 hNone hStill
      exact ⟨hQuiet.idle, hQuiet.list⟩

/- Rings that are dropped were in no bank. -/
theorem discardReadyRings_spec :
    Triple (LoopBooks config) discardReadyRingsAfterStop
      (fun _ => LoopBooks config) anyStop := by
  apply Triple.read
  intro s hLoop
  apply Triple.update_bind
  apply Triple.value
  rintro t rfl
  exact
    loopBooks_stable.unseen s _
      ⟨rfl, rfl, rfl, rfl, rfl, rfl, rfl, rfl, rfl, rfl⟩ hLoop

/- The wait for the pass ends it. -/
theorem waitStream3_spec :
    Triple (LoopBooks config)
      (waitStream3 config frontierSize fuel)
      (fun _ => LoopBooks config) anyStop := by
  apply Triple.seq (await_idle.pre fun _ hLoop => hLoop.1)
  intro _
  exact completeStream3Ring_spec

/- The wait for a ring. -/
theorem waitOldestRing_spec :
    Triple (LoopBooks config) (waitOldestRing config)
      (fun _ => LoopBooks config) anyStop := by
  apply Triple.read
  intro s hLoop
  rcases s.rings.running with _ | ⟨ring, rings⟩
  · exact Triple.stop fun _ _ => trivial
  · refine
      Triple.seq (R := fun _ => LoopBooks config)
        (Triple.conseq
          (await_spec loopBooks_stable.observed _) ?_ ?_ ?_)
        ?_
    · rintro t rfl
      exact hLoop
    · exact fun _ _ hPost => hPost.1
    · exact fun _ _ _ => trivial
    · intro _
      apply Triple.seq
        (update_spec loopBooks_stable (readyRing_unseen ring))
      intro _
      apply Triple.seq (releaseCompletedRings_spec loopBooks_stable)
      intro _
      apply Triple.seq refreshStopRequested_spec
      intro _
      exact Triple.value fun _ hPost => hPost

/- The wait for a slot. -/
theorem waitCompleted_loop :
    Triple (LoopBooks config)
      (waitCompletedStream4Slot config fuel)
      (fun _ => LoopBooks config) anyStop :=
  keeps_sorts rests_of_sorts waitCompleted_books
    (waitCompletedStream4Slot_within config fuel)

/- After a stop the loop waits in the same ways. -/
theorem waitAfterStop_spec (progressed : Bool) :
    Triple (LoopBooks config)
      (waitAfterStop config frontierSize fuel progressed)
      (fun _ => LoopBooks config) anyStop := by
  apply Triple.read
  intro s hLoop
  have hHere :
      ∀ t, t = s → LoopBooks config t := by
    rintro t rfl
    exact hLoop
  refine Triple.branch (fun _ => Triple.value hHere) fun _ => ?_
  refine
    Triple.branch (fun _ => waitStream3_spec.pre hHere)
      fun _ => ?_
  refine
    Triple.branch (fun _ => waitOldestRing_spec.pre hHere)
      fun _ => ?_
  refine Triple.branch ?_ ?_
  · intro _
    apply Triple.seq (waitCompleted_loop.pre hHere)
    intro _
    exact Triple.value fun _ hPost => hPost
  · intro _
    apply Triple.seq (discardReadyRings_spec.pre hHere)
    intro _
    exact Triple.value fun _ hPost => hPost

/- So it does without progress. -/
theorem waitForProgress_spec (progressed : Bool) :
    Triple (LoopBooks config)
      (waitForProgress config frontierSize fuel progressed)
      (fun _ => LoopBooks config) anyStop := by
  apply Triple.read
  intro s hLoop
  have hHere :
      ∀ t, t = s → LoopBooks config t := by
    rintro t rfl
    exact hLoop
  refine Triple.branch (fun _ => Triple.value hHere) fun _ => ?_
  refine
    Triple.branch (fun _ => waitStream3_spec.pre hHere)
      fun _ => ?_
  refine
    Triple.branch (fun _ => waitOldestRing_spec.pre hHere)
      fun _ => ?_
  refine Triple.branch ?_ fun _ => Triple.value hHere
  intro _
  apply Triple.seq (waitCompleted_loop.pre hHere)
  intro _
  exact Triple.value fun _ hPost => hPost

/- Work is started where there is room for it. -/
theorem startWork_spec
    (hSlots : 0 < config.stream4ActiveSortSlots)
    (progressed : Bool) :
    Triple (fun s => Stream4Books config [] [] s ∧ s.Ready)
      (startWork config frontierSize fuel progressed)
      (fun _ => LoopBooks config) anyStop := by
  have hUpdate :
      Triple (fun s => Stream4Books config [] [] s ∧ s.Ready)
        (maybeUpdateThreshold config fuel)
        (fun _ s => Stream4Books config [] [] s ∧ s.Ready)
        anyStop :=
    keeps_sorts ready_of_sorts (maybeUpdateThreshold_books hSlots)
      (maybeUpdateThreshold_within config fuel)
  apply Triple.seq hUpdate
  intro updated
  apply Triple.seq
    (keeps_sorts ready_of_sorts
      (launchPending_books (E := anyStop) hSlots)
      (launchPendingStream4Shards_within config))
  intro shards
  apply Triple.seq
    (launchFreeRings_spec (books_stable.and ready_stable))
  intro rings
  apply Triple.seq (tryLaunchStream3_spec hSlots)
  intro stream3
  apply Triple.seq hUpdate
  intro again
  refine (waitForProgress_spec _).pre ?_
  rintro s ⟨hBooks, hReady⟩
  exact ⟨hBooks, fun hNone _ => hReady hNone⟩

/- The pass is ended where it is done. -/
theorem releaseStream3_spec :
    Triple (LoopBooks config)
      (releaseStream3 config frontierSize fuel)
      (fun _ => LoopBooks config) anyStop := by
  apply Triple.read
  intro s hLoop
  refine Triple.branch ?_ ?_
  · intro _
    apply observe_bind
    have hNow := loopBooks_stable.observed s hLoop
    refine Triple.branch ?_ ?_
    · intro hDone
      refine Triple.seq (completeStream3Ring_spec.pre ?_) ?_
      · rintro t rfl
        exact ⟨hNow.1, of_decide_eq_true hDone⟩
      · intro _
        exact Triple.value fun _ hPost => hPost
    · intro _
      apply Triple.value
      rintro t rfl
      exact hNow
  · intro _
    apply Triple.value
    rintro t rfl
    exact hLoop

/- The rings are dropped after a stop. -/
theorem discardIfStopped_spec (ringsCompleted : Bool) :
    Triple (LoopBooks config)
      (discardIfStopped config ringsCompleted)
      (fun _ => LoopBooks config) anyStop := by
  refine Triple.branch ?_ ?_
  · intro _
    apply Triple.seq refreshStopRequested_spec
    intro stopped
    exact
      Triple.branch (fun _ => discardReadyRings_spec)
        fun _ => Triple.value fun _ hPost => hPost
  · intro _
    exact Triple.value fun _ hLoop => hLoop

/- The loop is left when no ring is in Stream 3 any more. -/
theorem eventLoopRound_spec
    (hSlots : 0 < config.stream4ActiveSortSlots) :
    Triple (LoopBooks config)
      (eventLoopRound config frontierSize fuel)
      (fun done s =>
        if done then LoopBooks config s ∧ s.rings.active = none
        else LoopBooks config s)
      anyStop := by
  apply Triple.read
  intro s hLoop
  refine Triple.branch ?_ ?_
  · intro _
    refine
      Triple.seq
        ((keeps_sorts rests_of_sorts (release_books (E := anyStop))
          (releaseCompletedStream4Slots_within config)).pre ?_)
        ?_
    · rintro t rfl
      exact hLoop
    · intro slots
      apply Triple.seq (releaseCompletedRings_spec loopBooks_stable)
      intro rings
      apply Triple.seq releaseStream3_spec
      intro stream3
      apply Triple.seq (discardIfStopped_spec rings)
      intro discarded
      apply Triple.read
      intro t hAfter
      refine Triple.branch ?_ ?_
      · intro _
        refine Triple.seq ((waitAfterStop_spec _).pre ?_) ?_
        · rintro u rfl
          exact hAfter
        · intro _
          exact Triple.value fun _ hPost => hPost
      · intro hRunning
        refine Triple.seq ((startWork_spec hSlots _).pre ?_) ?_
        · rintro u rfl
          exact
            ⟨hAfter.1, fun hNone =>
              hAfter.2 hNone
                (Bool.eq_false_of_not_eq_true hRunning)⟩
        · intro _
          exact Triple.value fun _ hPost => hPost
  · intro hLeft
    apply Triple.value
    rintro t rfl
    refine ⟨hLoop, ?_⟩
    by_contra hActive
    apply hLeft
    rw [keepsRunning, Option.isSome_iff_ne_none.mpr hActive,
      Bool.or_true, Bool.true_or]

----------------
-- The End Of A Depth
----------------

/- All rows are sorted: nothing waits and nothing is dirty. -/
structure Flushed
    (config : DispatchConfig)
    (rank : Rank) : Prop extends Drained config rank where
  quiet : rank.Quiet
  settled :
    ∀ physical < config.storageShardCount, rank.Settled physical

/- A round without rows of its own. -/
theorem zeroSendRound_spec
    (hSlots : 0 < config.stream4ActiveSortSlots)
    (globalRounds : Nat) :
    Triple (fun s => Stream4Books config [] [] s ∧ s.Quiet)
      (zeroSendRound config frontierSize fuel globalRounds)
      (fun _ s => Stream4Books config [] [] s ∧ s.Quiet)
      anyStop := by
  apply Triple.read
  intro s hBoth
  refine Triple.branch ?_ ?_
  · intro _
    refine
      Triple.seq
        (Triple.pre
          (runStream5ExchangeAndCollect_spec
            (books_stable.and quiet_stable)
            (fun _ hPair => hPair.1)
            (fun _ hBooks hQuiet => ⟨hBooks, hQuiet⟩)
            _ true ?_)
          ?_)
        ?_
    · exact
        Triple.branch (fun _ => reserveStream3Round_spec hSlots)
          fun _ => Triple.value fun _ hPair => hPair
    · rintro t rfl
      exact hBoth
    · intro _
      apply Triple.seq
        (keeps_sorts quiet_of_sorts
          (launchPending_books (E := anyStop) hSlots)
          (launchPendingStream4Shards_within config))
      intro _
      exact Triple.value fun _ hPost => hPost
  · intro _
    apply Triple.value
    rintro t rfl
    exact hBoth

/- The last request of a depth. -/
theorem boundaryRequest_spec
    (hSlots : 0 < config.stream4ActiveSortSlots) :
    Triple (fun s => Stream4Books config [] [] s ∧ s.Quiet)
      (boundaryRequest config fuel)
      (fun _ s => Stream4Books config [] [] s ∧ s.Quiet)
      anyStop := by
  refine Triple.branch ?_ ?_
  · intro _
    apply Triple.seq
      (keeps_sorts quiet_of_sorts (release_books (E := anyStop))
        (releaseCompletedStream4Slots_within config))
    intro _
    apply Triple.read
    intro s hBoth
    refine
      (maybeRunStream5ThresholdUpdate_spec hSlots _ _).pre ?_
    rintro t rfl
    exact hBoth
  · intro _
    exact Triple.value fun _ hBoth => hBoth

/- Without a busy slot there is nothing to wait for. -/
theorem waitAll_idle
    {s : Rank}
    (hBusy : s.stream4.busySlots = []) :
    Triple (fun t => t = s) (waitAllStream4Slots config fuel)
      (fun _ t => t = s) anyStop := by
  refine Triple.repeatUntil ?_ fun _ _ => trivial
  apply Triple.read
  rintro t rfl
  rw [hBusy]
  exact Triple.value fun _ hSame => hSame

/- What a flush round knows once the counts are copied. -/
structure Copied
    (config : DispatchConfig)
    (rank : Rank) : Prop extends Drained config rank where
  quiet : rank.Quiet
  settled :
    ∀ physical < config.storageShardCount,
      rank.copies.dirty physical = 0 → rank.Settled physical

/-
  After the copies, what the host has is what the banks hold:
  nothing was appended in between.
-/
theorem copyCounts_copied :
    Triple (fun s => Drained config s ∧ s.Quiet)
      (copyCounts config) (fun _ => Copied config) anyStop := by
  apply Triple.of_state
  rintro s ⟨hDrained, hQuiet⟩
  apply observe_bind
  apply Triple.update_bind
  apply observe_bind
  apply Triple.update
  rintro t rfl
  have hFirst := hDrained.observed
  have hClean : Drained config (s.observed config).copyClean :=
    ⟨hFirst.books.of_banks
        (fun phases hBanks => ⟨phases, hBanks.copyClean⟩) rfl rfl,
      hFirst.pending, hFirst.busy⟩
  have hStill : (s.observed config).copyClean.Quiet :=
    ⟨hQuiet.observed.idle, hQuiet.observed.list⟩
  have hSecond := hClean.observed
  have hAfter := @Rank.Quiet.observed config _ hStill
  refine ⟨⟨?_, hSecond.pending, hSecond.busy⟩, ?_, ?_⟩
  · exact
      hSecond.books.of_banks
        (fun phases hBanks => ⟨phases, hBanks.copyDirty⟩) rfl rfl
  · exact ⟨hAfter.idle, hAfter.list⟩
  · exact fun physical _ hZero => Or.inr hZero

/- An update changes no copy. -/
theorem updateAfterFlush_spec :
    Triple (Copied config) (updateAfterFlush config fuel)
      (fun _ => Copied config) anyStop := by
  apply Triple.read
  intro s hCopied
  have hHere : ∀ t, t = s → Copied config t := by
    rintro t rfl
    exact hCopied
  refine Triple.branch ?_ fun _ => Triple.value hHere
  intro _
  apply Triple.read
  rintro t rfl
  refine Triple.branch (fun _ => Triple.value hHere) fun _ => ?_
  refine Triple.branch (fun _ => fail_spec _) fun _ => ?_
  apply Triple.seq (waitAll_idle hCopied.busy)
  intro _
  apply Triple.update
  rintro u rfl
  exact
    ⟨⟨hCopied.books.clearThresholdJobs, hCopied.pending,
      hCopied.busy⟩, ⟨hCopied.quiet.idle, hCopied.quiet.list⟩,
      hCopied.settled⟩

/- What the question of the flush is about. -/
theorem anyDirty_eq_false
    {copies : HostCopies}
    (hClean : anyDirty config copies = false) :
    ∀ physical < config.storageShardCount,
      copies.dirty physical = 0 := by
  intro physical hInside
  rw [anyDirty, List.any_eq_false] at hClean
  have hNot := hClean physical (List.mem_range.mpr hInside)
  by_contra hDirty
  exact hNot (decide_eq_true hDirty)

/- A round that converged found every bank clean. -/
theorem flushRound_spec
    (hSlots : 0 < config.stream4ActiveSortSlots) :
    Triple (fun s => Stream4Books config [] [] s ∧ s.Quiet)
      (flushRound config fuel)
      (fun converged s =>
        Copied config s ∧ (converged = true → Flushed config s))
      anyStop := by
  refine
    Triple.seq (R := fun _ => Stream4Books config [] []) ?_ ?_
  · apply Triple.update
    rintro s ⟨hBooks, hQuiet⟩
    exact hBooks.setStage fun _ => hQuiet.list
  · intro _
    apply stage_spec
    intro _
    apply Triple.seq
      (any_stop
        (with_quiet (drainPendingStream4Shards_spec hSlots)
          (drainPendingStream4Shards_within config fuel)))
    intro _
    apply Triple.seq copyCounts_copied
    intro _
    apply Triple.seq updateAfterFlush_spec
    intro _
    apply Triple.read
    intro s hCopied
    apply Triple.value
    rintro t rfl
    refine ⟨hCopied, fun hConverged => ?_⟩
    have hClean :=
      anyDirty_eq_false
        (Bool.not_eq_true' _ |>.mp hConverged)
    exact
      ⟨hCopied.toDrained, hCopied.quiet, fun physical hInside =>
        hCopied.settled physical hInside
          (hClean physical hInside)⟩

/- The flush returns only after such a round. -/
theorem flushRounds_spec
    (hSlots : 0 < config.stream4ActiveSortSlots)
    (rounds : Nat) :
    Triple (fun s => Stream4Books config [] [] s ∧ s.Quiet)
      (flushRounds config fuel rounds)
      (fun _ => Flushed config) anyStop := by
  induction rounds with
  | zero => exact fail_spec _
  | succ rounds ih =>
      apply Triple.seq (flushRound_spec hSlots)
      intro converged
      refine Triple.branch ?_ ?_
      · intro hConverged
        exact Triple.value fun _ hPost => hPost.2 hConverged
      · intro _
        exact ih.pre fun _ hPost => ⟨hPost.1.books, hPost.1.quiet⟩

/- So a depth that ends has sorted every row. -/
theorem finishDepth_spec
    (hSlots : 0 < config.stream4ActiveSortSlots)
    (globalRounds : Nat) :
    Triple (fun s => Stream4Books config [] [] s ∧ s.Quiet)
      (finishDepth config frontierSize fuel globalRounds)
      (fun _ => Flushed config) anyStop := by
  refine
    Triple.seq
      (R := fun _ s => Stream4Books config [] [] s ∧ s.Quiet)
      ?_ ?_
  · refine Triple.repeatUntil ?_ fun _ _ => trivial
    refine (zeroSendRound_spec hSlots globalRounds).post ?_
    intro done s hPost
    split
    · exact hPost
    · exact hPost
  · intro _
    apply Triple.seq (boundaryRequest_spec hSlots)
    intro _
    apply Triple.seq
      (any_stop
        (with_quiet (drainPendingStream4Shards_spec hSlots)
          (drainPendingStream4Shards_within config fuel)))
    intro _
    refine
      Triple.seq
        ((keeps_sorts quiet_of_sorts
          forcePeriodicThresholdUpdate_books
          (forcePeriodicThresholdUpdate_within config fuel)).pre
            fun _ hPost => ⟨hPost.1.books, hPost.2⟩)
        ?_
    intro _
    apply Triple.seq (flushRounds_spec hSlots _)
    intro _
    apply Triple.read
    intro s hFlushed
    refine Triple.branch (fun _ => fail_spec _) fun _ => ?_
    apply Triple.value
    rintro t rfl
    exact hFlushed

----------------
-- A Whole Depth
----------------

/- A depth ends stopped, with no sort left, or flushed. -/
theorem runDepth_spec
    (hSlots : 0 < config.stream4ActiveSortSlots) :
    Triple (fun s => Stream4Books config [] [] s ∧ s.Quiet)
      (runDepth config frontierSize fuel)
      (fun _ s =>
        (Stream4Books config [] [] s ∧
            s.stream4.busySlots = [] ∧ s.stopRequested = true) ∨
          Flushed config s)
      anyStop := by
  have hStable :
      Stable config fun s =>
        Stream4Books config [] [] s ∧ s.Quiet :=
    books_stable.and quiet_stable
  refine
    Triple.branch (fun _ => Triple.stop fun _ _ => trivial)
      fun _ => ?_
  refine
    Triple.seq
      (R := fun _ s => Stream4Books config [] [] s ∧ s.Quiet)
      ?_ ?_
  · exact
      Triple.branch (fun _ => allReduce_spec hStable _ _)
        fun _ => Triple.value fun _ hBoth => hBoth
  intro globalRounds
  refine
    Triple.seq
      (R := fun _ s => Stream4Books config [] [] s ∧ s.Quiet)
      ?_ ?_
  · exact
      update_spec hStable fun _ =>
        ⟨rfl, rfl, rfl, rfl, rfl, rfl, rfl, rfl, rfl, rfl⟩
  intro _
  apply Triple.seq (launchFreeRings_spec hStable)
  intro _
  have hLoop :
      Triple (LoopBooks config)
        (Hoare.repeatUntil .stalled fuel
          (eventLoopRound config frontierSize fuel))
        (fun _ s => LoopBooks config s ∧ s.rings.active = none)
        anyStop :=
    Triple.repeatUntil (eventLoopRound_spec hSlots)
      fun _ _ => trivial
  refine Triple.seq (hLoop.pre ?_) ?_
  · exact fun _ hBoth => ⟨hBoth.1, fun _ _ => hBoth.2⟩
  intro _
  apply Triple.read
  rintro s ⟨⟨hBooks, hRests⟩, hNone⟩
  refine Triple.branch ?_ ?_
  · intro hStopped
    refine
      Triple.conseq
        (waitAll_books.and (waitAllStream4Slots_stopped config fuel))
        ?_ ?_ fun _ _ _ => trivial
    · rintro t rfl
      exact ⟨hBooks, hStopped⟩
    · rintro _ t ⟨⟨hAfter, hBusy⟩, hStill⟩
      exact Or.inl ⟨hAfter, hBusy, hStill⟩
  · intro hRunning
    refine
      Triple.conseq (finishDepth_spec hSlots globalRounds) ?_ ?_
        fun _ _ hStop => hStop
    · rintro t rfl
      exact
        ⟨hBooks,
          hRests hNone (Bool.eq_false_of_not_eq_true hRunning)⟩
    · exact fun _ _ hFlushed => Or.inr hFlushed

/-
  When a depth returns, no list of Stream 3 was lost, the sorts
  of each shard ran one after the other, and none is running.
  Without a stop request every row that was appended is sorted.
-/
theorem runDepth_sorts_every_row
    {config : DispatchConfig}
    (hSlots : 0 < config.stream4ActiveSortSlots)
    (frontierSize fuel : Nat)
    (schedule : List (List DeviceEvent))
    (replies : List Reply) :
    Triple (fun s => s = initialRank config schedule replies)
      (runDepth config frontierSize fuel)
      (fun _ s =>
        s.trace.listOverwritten = false ∧
          (bankReplay s.trace.bankEvents).isSome = true ∧
          s.stream4.busySlots = [] ∧
          (s.stopRequested = false →
            s.stream4.pending = [] ∧
              s.device.readyShardList = [] ∧
              ∀ physical < config.storageShardCount,
                unsortedRows s.trace.bankEvents physical = 0))
      anyStop := by
  refine
    Triple.conseq (runDepth_spec hSlots) ?_ ?_
      fun _ _ hStop => hStop
  · rintro s rfl
    exact
      ⟨initialRank_stream4Books schedule replies,
        initialRank_quiet schedule replies⟩
  · rintro _ s (⟨hBooks, hBusy, hStopped⟩ | hFlushed)
    · rcases hBooks.banks with ⟨phases, hBanks⟩
      refine
        ⟨hBanks.kept, by rw [hBanks.replay]; rfl, hBusy,
          fun hRunning => ?_⟩
      rw [hStopped] at hRunning
      cases hRunning
    · rcases hFlushed.books.banks with ⟨phases, hBanks⟩
      exact
        ⟨hBanks.kept, by rw [hBanks.replay]; rfl,
          hFlushed.busy, fun _ =>
          ⟨hFlushed.pending, hFlushed.quiet.list,
            fun physical hInside =>
              hFlushed.toDrained.unsorted hFlushed.quiet
                (hFlushed.settled physical hInside)⟩⟩

/- Was a stop requested, and what happened to the banks? -/
def oneShardDepth : Dispatch (Bool × List BankEvent) := do
  runDepth oneShard 1 6
  let rank ← get
  pure (rank.stopRequested, rank.trace.bankEvents)

/- One parent, whose only row is appended, listed and sorted. -/
theorem runDepth_sorts_every_row_oneShard :
    ∃ s,
      oneShardDepth (initialRank oneShard (oneShardEvents 20) []) =
          .ok
            (false,
              [.appended 0 1, .listed 0, .launched 0, .passed 0])
            s ∧
        s.trace.listOverwritten = false ∧
          s.stream4.busySlots = [] ∧
            s.stream4.pending = [] ∧
              s.device.readyShardList = [] ∧
                ∀ physical < oneShard.storageShardCount,
                  unsortedRows s.trace.bankEvents physical =
                    0 := by
  have hDepth :
      Triple
        (fun s =>
          s = initialRank oneShard (oneShardEvents 20) [])
        oneShardDepth
        (fun seen s =>
          s.trace.listOverwritten = false ∧
            s.stream4.busySlots = [] ∧
              (seen.1 = false →
                s.stream4.pending = [] ∧
                  s.device.readyShardList = [] ∧
                  ∀ physical < oneShard.storageShardCount,
                    unsortedRows s.trace.bankEvents physical =
                      0))
        anyStop := by
    refine
      Triple.seq
        (runDepth_sorts_every_row
          (by decide : 0 < oneShard.stream4ActiveSortSlots) 1 6
          (oneShardEvents 20) []) ?_
    intro _
    apply Triple.read
    rintro rank ⟨hKept, -, hBusy, hSorted⟩
    apply Triple.value
    rintro s rfl
    exact ⟨hKept, hBusy, hSorted⟩
  have hSeen :
      oneShardDepth.run'
          (initialRank oneShard (oneShardEvents 20) []) =
        some
          (false,
            [.appended 0 1, .listed 0, .launched 0,
              .passed 0]) := by
    decide +kernel
  delta EStateM.run' EStateM.run at hSeen
  cases hResult :
    oneShardDepth (initialRank oneShard (oneShardEvents 20) [])
    with
  | ok seen s =>
      rw [hResult] at hSeen
      rw [Option.some.inj hSeen] at hResult ⊢
      rcases hDepth.of_ok rfl hResult with
        ⟨hKept, hBusy, hSorted⟩
      exact ⟨s, rfl, hKept, hBusy, hSorted rfl⟩
  | error stop s =>
      rw [hResult] at hSeen
      cases hSeen

end Depth

end Dispatcher

end BeamSearch
