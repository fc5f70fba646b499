import BeamSearch.Dispatcher.Frames
import BeamSearch.Dispatcher.Slots

/-
  What the host's Stream 4 programs do to the books.

  Each program is walked once: the releases and the waits, the
  launches, the drain and the flush under pressure. They stop
  only where the device keeps them waiting or reports an error.

  Main declarations:
    * `Expected`, `Drained`
    * `drainPendingStream4Shards_spec`
    * `pressureFlushStream4_spec`
    * `pressureFlushStream4_leaves_sorted`
-/

namespace BeamSearch

open Stream3
open Hoare

namespace Dispatcher

----------------
-- How Sorting May Stop
----------------

/-
  The ways sorting stops: a wait is not served, or the device
  reports a fatal error. No queue is read that is empty, and no
  guard of the host's own fails.
-/
inductive Expected : Stop → Prop where
  | stalled : Expected .stalled
  | fatal (phase : String) :
      Expected
        (.thrown
          (.runtimeError
            ("cuda stream fatal error: phase=" ++ phase)))

/- The stops that a run of the sorts may end in. -/
def expectedStop (stop : Stop) (_ : Rank) : Prop :=
  Expected stop

section Sorting

variable {config : DispatchConfig}
variable {fuel : Nat}
variable {held taken : List Nat}
variable {E : Stop → Rank → Prop}
variable {s : Rank} {P : Rank → Prop} {slot physical : Nat} {phases : Nat → ShardPhase}

----------------
-- Looking At The Device
----------------

/- A program that looks first runs in the state that is seen. -/
theorem observe_bind
    {α : Type}
    {next : Rank → Dispatch α}
    {Q : α → Rank → Prop}
    (hNext :
      Triple (fun t => t = s.observed config)
        (next (s.observed config)) Q E) :
    Triple (fun t => t = s) (observe config >>= next) Q E := by
  intro t hT
  subst hT
  exact hNext (t.observed config) rfl

/- A wait that ends has seen what it waited for. -/
theorem await_spec
    (hKeeps : ∀ s, P s → P (s.observed config))
    (done : Rank → Bool) :
    Triple P (await config done)
      (fun _ t => P t ∧ done t = true) expectedStop := by
  apply Triple.of_state
  intro s hP
  apply observe_bind
  refine Triple.branch ?_ ?_
  · intro hDone
    apply Triple.value
    rintro t rfl
    exact ⟨hKeeps s hP, hDone⟩
  · intro _
    exact Triple.stop fun _ _ => Expected.stalled

/- The check keeps what the device keeps. -/
theorem throwIfStreamFatalError_spec
    (hKeeps : ∀ s, P s → P (s.observed config))
    (phase : String) :
    Triple P (throwIfStreamFatalError config phase)
      (fun _ => P) expectedStop := by
  apply Triple.of_state
  intro s hP
  apply observe_bind
  refine Triple.branch ?_ ?_
  · intro _
    exact Triple.stop fun _ _ => Expected.fatal phase
  · intro _
    apply Triple.value
    rintro t rfl
    exact hKeeps s hP

/- A step of the queue that is not refused. -/
theorem stepQueue_ok
    {α : Type}
    {a : α}
    {queue : Stream4Queue}
    {step : Stream4Queue → Except Exception (α × Stream4Queue)}
    (hStep : step s.stream4 = .ok (a, queue)) :
    Triple (fun t => t = s) (stepQueue step)
      (fun b t => b = a ∧ t = s.setStream4 queue) E := by
  apply Triple.read
  rintro t rfl
  rw [hStep]
  apply Triple.update_bind
  apply Triple.value
  rintro u rfl
  exact ⟨rfl, rfl⟩

/- The host finishes a slot that is busy and done. -/
theorem markStream4SlotComplete_spec
    (hBooks : Stream4Books config held taken s)
    (hBusy : slot ∈ s.stream4.busySlots) :
    Triple (fun t => t = s.dropBusySlot slot)
      (markStream4SlotComplete config slot)
      (fun _ t => t = s.completeSlot config slot) E := by
  have hStep :
      ((s.dropBusySlot slot).stream4.markComplete config slot >>=
          fun queue => pure (PUnit.unit, queue)) =
        .ok (PUnit.unit, (s.completeSlot config slot).stream4) := by
    rw [markComplete_eq hBooks.slots hBusy]
    rfl
  refine (stepQueue_ok hStep).post ?_
  rintro _ t ⟨-, rfl⟩
  rfl

----------------
-- Releasing Slots
----------------

/- Slots are released; what is pending stays. -/
structure Released
    (config : DispatchConfig)
    (held taken : List Nat)
    (s t : Rank) : Prop where
  books : Stream4Books config held taken t
  pending : t.stream4.pending = s.stream4.pending
  busy : t.stream4.busySlots ⊆ s.stream4.busySlots

/- Nothing was released. -/
theorem Released.refl
    (hBooks : Stream4Books config held taken s) :
    Released config held taken s s :=
  ⟨hBooks, rfl, fun _ hMem => hMem⟩

/- One release after the other. -/
theorem Released.trans
    {t u : Rank}
    (hFirst : Released config held taken s t)
    (hSecond : Released config held taken t u) :
    Released config held taken s u :=
  ⟨hSecond.books, hSecond.pending.trans hFirst.pending,
    fun _ hMem => hFirst.busy (hSecond.busy hMem)⟩

/- A look releases nothing. -/
theorem Released.observed
    (hBooks : Stream4Books config held taken s) :
    Released config held taken s (s.observed config) := by
  have hSame := (observed_stream4 config s).1
  refine ⟨hBooks.observed, ?_, ?_⟩
  · rw [hSame]
  · rw [hSame]
    exact fun _ hMem => hMem

/- What the release of one slot leaves. -/
structure SlotReleased
    (config : DispatchConfig)
    (held taken : List Nat)
    (slot : Nat)
    (s t : Rank) : Prop where
  released : Released config held taken s t
  others :
    ∀ other ∈ s.stream4.busySlots, other ≠ slot →
      other ∈ t.stream4.busySlots
  free :
    s.stream4.freeSlots ≠ [] → t.stream4.freeSlots ≠ []

/-
  One slot released: it leaves the busy ones, and its shard is
  at rest.
-/
theorem completeSlot_released
    (hBooks : Stream4Books config held taken s)
    (hBusy : slot ∈ s.stream4.busySlots)
    (hDone : s.device.slotJob slot = none) :
    SlotReleased config held taken slot s
        (s.completeSlot config slot) ∧
      (s.completeSlot config slot).stream4.freeSlots ≠ [] := by
  have hFree :
      (s.completeSlot config slot).stream4.freeSlots ≠ [] :=
    List.append_ne_nil_of_right_ne_nil _ (List.cons_ne_nil _ _)
  refine
    ⟨⟨⟨hBooks.completeSlot hBusy hDone, rfl, ?_⟩, ?_,
      fun _ => hFree⟩, hFree⟩
  · exact fun _ hMem => List.mem_of_mem_erase hMem
  · intro other hMem hNe
    exact (List.mem_erase_of_ne hNe).mpr hMem

/-
  Either the job is done and the slot released, or nothing
  changed.
-/
theorem releaseSlotIfDone_spec
    (hBooks : Stream4Books config held taken s)
    (hBusy : slot ∈ s.stream4.busySlots) :
    Triple (fun t => t = s) (releaseSlotIfDone config slot)
      (fun found t =>
        SlotReleased config held taken slot s t ∧
          (found = true → t.stream4.freeSlots ≠ []))
      E := by
  have hSame := (observed_stream4 config s).1
  have hBusy' :
      slot ∈ (s.observed config).stream4.busySlots := by
    rw [hSame]
    exact hBusy
  apply observe_bind
  refine Triple.branch ?_ ?_
  · intro hDone
    have hNone : (s.observed config).device.slotJob slot = none :=
      Option.isNone_iff_eq_none.mp hDone
    have hAfter :=
      completeSlot_released hBooks.observed hBusy' hNone
    apply Triple.update_bind
    apply Triple.seq
      (markStream4SlotComplete_spec hBooks.observed hBusy')
    intro _
    apply Triple.value
    rintro t rfl
    refine ⟨⟨?_, ?_, ?_⟩, fun _ => hAfter.2⟩
    · exact (Released.observed hBooks).trans hAfter.1.released
    · intro other hMem hNe
      apply hAfter.1.others other _ hNe
      rw [hSame]
      exact hMem
    · exact fun _ => hAfter.2
  · intro _
    apply Triple.value
    rintro t rfl
    refine ⟨⟨Released.observed hBooks, ?_, ?_⟩, by simp⟩
    · rw [hSame]
      exact fun _ hMem _ => hMem
    · rw [hSame]
      exact fun hFree => hFree

/- The walk releases the busy slots it comes to. -/
theorem releaseCompletedStream4Slots_spec
    (hBooks : Stream4Books config held taken s) :
    Triple (fun t => t = s) (releaseCompletedStream4Slots config)
      (fun any t =>
        Released config held taken s t ∧
          (any = true → t.stream4.freeSlots ≠ []))
      E := by
  let J : List Nat → Rank → Prop := fun rest t =>
    Released config held taken s t ∧
      rest.Nodup ∧ rest ⊆ t.stream4.busySlots
  have hStep :
      ∀ slot rest, slot :: rest <:+ s.stream4.busySlots →
        ∀ t, J (slot :: rest) t →
          Triple (fun u => u = t) (releaseSlotIfDone config slot)
            (fun found u =>
              J rest u ∧
                (t.stream4.freeSlots ≠ [] →
                  u.stream4.freeSlots ≠ []) ∧
                (found = true → u.stream4.freeSlots ≠ []))
            E := by
    rintro slot rest - t ⟨hReleased, hNodup, hSub⟩
    rcases List.nodup_cons.mp hNodup with ⟨hNotMem, hRest⟩
    refine
      Triple.post
        (releaseSlotIfDone_spec hReleased.books
          (hSub List.mem_cons_self)) ?_
    rintro found u ⟨hOne, hFound⟩
    refine
      ⟨⟨hReleased.trans hOne.released, hRest, ?_⟩, hOne.free,
        hFound⟩
    intro other hMem
    apply hOne.others other (hSub (List.mem_cons_of_mem _ hMem))
    rintro rfl
    exact hNotMem hMem
  have hWalk :
      Triple (J s.stream4.busySlots)
        (Hoare.anyOf s.stream4.busySlots
          (releaseSlotIfDone config))
        (fun any t =>
          J [] t ∧
            (any = true → t.stream4.freeSlots ≠ []))
        E := by
    apply Triple.anyOf_found
    · intro slot rest hSuffix
      apply Triple.of_state
      intro t hJ
      exact
        (hStep slot rest hSuffix t hJ).post fun _ _ hPost =>
          ⟨hPost.1, hPost.2.2⟩
    · intro slot rest hSuffix
      apply Triple.of_state
      rintro t ⟨hJ, hFree⟩
      exact
        (hStep slot rest hSuffix t hJ).post fun _ _ hPost =>
          hPost.2.1 hFree
  apply Triple.read
  rintro t rfl
  refine (hWalk.pre ?_).post ?_
  · rintro u rfl
    exact
      ⟨Released.refl hBooks, hBooks.slots.busy_nodup,
        fun _ hMem => hMem⟩
  · exact fun _ _ hPost => ⟨hPost.1.1, hPost.2⟩

/- After the wait the slot is free. -/
theorem waitStream4Slot_spec
    (hBooks : Stream4Books config held taken s)
    (hBusy : slot ∈ s.stream4.busySlots) :
    Triple (fun t => t = s) (waitStream4Slot config slot)
      (fun _ t =>
        Released config held taken s t ∧
          t.stream4.freeSlots ≠ [])
      expectedStop := by
  let P : Rank → Prop := fun t =>
    Released config held taken s t ∧
      slot ∈ t.stream4.busySlots
  have hKeeps : ∀ t, P t → P (t.observed config) := by
    rintro t ⟨hReleased, hMem⟩
    refine
      ⟨hReleased.trans (Released.observed hReleased.books), ?_⟩
    rw [(observed_stream4 config t).1]
    exact hMem
  have hWait :
      Triple (fun t => t = s) (await config (Rank.slotDone slot))
        (fun _ t => P t ∧ t.slotDone slot = true)
        expectedStop := by
    refine (await_spec hKeeps _).pre ?_
    rintro t rfl
    exact ⟨Released.refl hBooks, hBusy⟩
  apply Triple.seq hWait
  intro _
  apply Triple.of_state
  rintro t ⟨⟨hReleased, hMem⟩, hDone⟩
  have hAfter :=
    completeSlot_released hReleased.books hMem
      (Option.isNone_iff_eq_none.mp hDone)
  apply Triple.update_bind
  refine
    (markStream4SlotComplete_spec hReleased.books hMem).post ?_
  rintro _ u rfl
  exact ⟨hReleased.trans hAfter.1.released, hAfter.2⟩

/- The walk ends with no busy slot; each turn has one less. -/
theorem waitAllStream4Slots_spec
    (hBooks : Stream4Books config held taken s) :
    Triple (fun t => t = s) (waitAllStream4Slots config fuel)
      (fun _ t =>
        Released config held taken s t ∧
          t.stream4.busySlots = [])
      expectedStop := by
  have hLoop :
      Triple (Released config held taken s)
        (waitAllStream4Slots config fuel)
        (fun _ t =>
          Released config held taken s t ∧
            t.stream4.busySlots = [])
        expectedStop := by
    refine Triple.repeatUntil ?_ fun _ _ => Expected.stalled
    apply Triple.read
    intro t hReleased
    cases hBusy : t.stream4.busySlots with
    | nil =>
        apply Triple.value
        rintro u rfl
        exact ⟨hReleased, hBusy⟩
    | cons slot slots =>
        have hMem : slot ∈ t.stream4.busySlots := by
          rw [hBusy]
          exact List.mem_cons_self
        apply Triple.seq
          (waitStream4Slot_spec hReleased.books hMem)
        intro _
        apply Triple.of_state
        rintro u ⟨hWaited, -⟩
        apply Triple.seq
          (releaseCompletedStream4Slots_spec hWaited.books)
        intro _
        apply Triple.value
        rintro v ⟨hMore, -⟩
        exact (hReleased.trans hWaited).trans hMore
  refine hLoop.pre ?_
  rintro t rfl
  exact Released.refl hBooks

/- A slot is free after the wait, or none was busy before it. -/
theorem waitCompletedStream4Slot_spec
    (hBooks : Stream4Books config held taken s) :
    Triple (fun t => t = s) (waitCompletedStream4Slot config fuel)
      (fun waited t =>
        Released config held taken s t ∧
          (waited = true → t.stream4.freeSlots ≠ []) ∧
          (waited = false → s.stream4.busySlots = []))
      expectedStop := by
  apply Triple.read
  rintro t rfl
  rcases hBusy : t.stream4.busySlots with
    _ | ⟨slot, _ | ⟨other, slots⟩⟩
  · apply Triple.value
    rintro u rfl
    exact ⟨Released.refl hBooks, by simp, fun _ => rfl⟩
  · have hMem : slot ∈ t.stream4.busySlots := by
      rw [hBusy]
      exact List.mem_cons_self
    apply Triple.seq (waitStream4Slot_spec hBooks hMem)
    intro _
    apply Triple.value
    rintro u ⟨hReleased, hFree⟩
    exact ⟨hReleased, fun _ => hFree, by simp⟩
  · have hLoop :
        Triple (Released config held taken t)
          (Hoare.repeatUntil .stalled fuel
            (releaseCompletedStream4Slots config))
          (fun _ u =>
            Released config held taken t u ∧
              u.stream4.freeSlots ≠ [])
          expectedStop := by
      refine Triple.repeatUntil ?_ fun _ _ => Expected.stalled
      apply Triple.of_state
      intro u hReleased
      refine
        (releaseCompletedStream4Slots_spec hReleased.books).post
          ?_
      rintro any v ⟨hMore, hFound⟩
      cases any with
      | false => exact hReleased.trans hMore
      | true => exact ⟨hReleased.trans hMore, hFound rfl⟩
    refine Triple.seq (hLoop.pre ?_) ?_
    · rintro u rfl
      exact Released.refl hBooks
    · intro _
      apply Triple.value
      rintro u ⟨hReleased, hFree⟩
      exact ⟨hReleased, fun _ => hFree, by simp⟩

----------------
-- Free Slots
----------------

/- The first free slot goes to the caller's hand. -/
theorem popFreeSlot_spec
    (hBooks : Stream4Books config held taken s) :
    Triple (fun t => t = s) popFreeSlot
      (fun popped t =>
        match popped with
        | none => t = s ∧ s.stream4.freeSlots = []
        | some slot =>
            Stream4Books config (slot :: held) taken t ∧
              t = s.dropFreeSlot)
      E := by
  apply Triple.read
  rintro t rfl
  cases hFree : t.stream4.freeSlots with
  | nil =>
      apply Triple.value
      rintro u rfl
      exact ⟨rfl, rfl⟩
  | cons slot rest =>
      apply Triple.update_bind
      apply Triple.value
      rintro u rfl
      exact ⟨hBooks.dropFreeSlot hFree, rfl⟩

/- A slot is in the hand; releases may have happened. -/
structure Acquired
    (config : DispatchConfig)
    (taken : List Nat)
    (slot : Nat)
    (s t : Rank) : Prop where
  books : Stream4Books config [slot] taken t
  pending : t.stream4.pending = s.stream4.pending
  busy : t.stream4.busySlots ⊆ s.stream4.busySlots

/- A slot that was taken after a release. -/
theorem Acquired.of_released
    {t : Rank}
    (hReleased : Released config [] taken s t)
    (hBooks : Stream4Books config [slot] taken t.dropFreeSlot) :
    Acquired config taken slot s t.dropFreeSlot :=
  ⟨hBooks, hReleased.pending, hReleased.busy⟩

/-
  The undefined branch is not reached: a wait that ended left
  a free slot.
-/
theorem acquireStream4SlotBlocking_spec
    (hSlots : 0 < config.stream4ActiveSortSlots)
    (hBooks : Stream4Books config [] taken s) :
    Triple (fun t => t = s)
      (acquireStream4SlotBlocking config fuel)
      (fun slot t => Acquired config taken slot s t)
      expectedStop := by
  apply Triple.seq (releaseCompletedStream4Slots_spec hBooks)
  intro _
  apply Triple.of_state
  rintro t ⟨hReleased, -⟩
  apply Triple.seq (popFreeSlot_spec hReleased.books)
  intro freeSlot
  cases freeSlot with
  | some slot =>
      apply Triple.value
      rintro u ⟨hHeld, rfl⟩
      exact Acquired.of_released hReleased hHeld
  | none =>
      apply Triple.of_state
      rintro u ⟨rfl, hFree⟩
      apply Triple.seq
        (waitCompletedStream4Slot_spec hReleased.books)
      intro waited
      apply Triple.of_state
      rintro v ⟨hMore, hFound, hBusy⟩
      refine Triple.branch ?_ ?_
      · intro hWaited
        apply Triple.seq (popFreeSlot_spec hMore.books)
        intro acquired
        cases acquired with
        | some slot =>
            apply Triple.value
            rintro w ⟨hHeld, rfl⟩
            exact
              Acquired.of_released (hReleased.trans hMore) hHeld
        | none =>
            apply Triple.stop
            rintro w ⟨-, hNone⟩
            exact absurd hNone (hFound hWaited)
      · intro hNot
        exact
          absurd (hBusy (by simpa using hNot))
            (hReleased.books.slots.busy_ne_nil hSlots hFree)

----------------
-- Launches
----------------

/-
  The first bank whose shard is at rest goes to the caller's
  hand.
-/
theorem takeLaunchablePendingStream4Shard_spec
    (hBooks : Stream4Books config held [] s) :
    Triple (fun t => t = s)
      (takeLaunchablePendingStream4Shard config)
      (fun found t =>
        match found with
        | none =>
            t = s ∧
              (s.stream4.pending ≠ [] →
                s.stream4.busySlots ≠ [])
        | some physical =>
            Stream4Books config held [physical] t ∧
              t.stream4.busySlots = s.stream4.busySlots ∧
              t.stream4.freeSlots = s.stream4.freeSlots)
      E := by
  have hSpec := hBooks.takeSpec
  cases hTake :
      s.stream4.takeLaunchable config [] s.stream4.pending with
  | error error =>
      rw [hTake] at hSpec
      cases hSpec
  | ok result =>
      refine (stepQueue_ok hTake).post ?_
      rw [hTake] at hSpec
      cases hSpec with
      | none hRunning =>
          rintro _ t ⟨rfl, rfl⟩
          refine ⟨rfl, ?_⟩
          intro hPending
          rcases List.exists_mem_of_ne_nil _ hPending with
            ⟨physical, hMem⟩
          rcases hBooks.slots.busy _ (hRunning physical hMem) with
            ⟨slot, hBusy, -⟩
          exact List.ne_nil_of_mem hBusy
      | some physical before after hPending hIdle =>
          rintro _ t ⟨rfl, rfl⟩
          exact ⟨hBooks.take hPending hIdle, rfl, rfl⟩

/- The guard of the launch holds, so nothing is thrown. -/
theorem launchStream4ShardOnSlot_spec
    {event : BankEvent}
    (hIdle :
      s.stream4.logicalRunning (logicalShard physical) = false) :
    Triple (fun t => t = s)
      (launchStream4ShardOnSlot event physical slot)
      (fun _ t => t = s.launchStream4 event physical slot) E := by
  apply Triple.read
  rintro t rfl
  refine Triple.branch ?_ ?_
  · intro hRunning
    rw [hIdle] at hRunning
    cases hRunning
  · intro _
    apply Triple.update
    rintro u rfl
    rfl

/- A taken bank goes to a held slot. -/
theorem launchTaken_spec
    (hBooks : Stream4Books config (slot :: held) [physical] s) :
    Triple (fun t => t = s)
      (launchStream4ShardOnSlot (.launched physical) physical slot)
      (fun _ t =>
        Stream4Books config held [] t ∧
          t.stream4.busySlots ≠ [])
      E := by
  refine
    (launchStream4ShardOnSlot_spec
      (hBooks.slots.idle physical (List.mem_singleton_self _))).post
      ?_
  rintro _ t rfl
  exact
    ⟨hBooks.launch,
      List.append_ne_nil_of_right_ne_nil _ (List.cons_ne_nil _ _)⟩

/- Launches go on while slots are free and banks can start. -/
theorem launchOnFreeSlots_spec
    (slots : List Nat)
    (hBooks : Stream4Books config [] [] s)
    (hEnough : slots.length ≤ s.stream4.freeSlots.length) :
    Triple (fun t => t = s) (launchOnFreeSlots config slots)
      (fun _ t =>
        Stream4Books config [] [] t ∧
          (s.stream4.busySlots ≠ [] ∨ slots ≠ [] →
            t.stream4.pending = [] ∨
              t.stream4.busySlots ≠ []))
      E := by
  induction slots generalizing s with
  | nil =>
      apply Triple.value
      rintro t rfl
      exact ⟨hBooks, fun hSome => Or.inr (by simpa using hSome)⟩
  | cons first slots ih =>
      apply Triple.seq
        (takeLaunchablePendingStream4Shard_spec hBooks)
      intro found
      cases found with
      | none =>
          apply Triple.value
          rintro t ⟨rfl, hBusy⟩
          refine ⟨hBooks, fun _ => ?_⟩
          by_cases hPending : t.stream4.pending = []
          · exact Or.inl hPending
          · exact Or.inr (hBusy hPending)
      | some physical =>
          apply Triple.of_state
          rintro t ⟨hTaken, hBusy, hFree⟩
          apply Triple.seq (popFreeSlot_spec hTaken)
          intro popped
          cases popped with
          | none =>
              apply Triple.stop
              rintro u ⟨-, hNone⟩
              rw [← hFree, hNone, List.length_cons] at hEnough
              exact absurd hEnough (Nat.not_succ_le_zero _)
          | some slot =>
              apply Triple.of_state
              rintro u ⟨hHeld, rfl⟩
              have hLength :
                  slots.length ≤
                    (t.dropFreeSlot).stream4.freeSlots.length := by
                dsimp only [Rank.dropFreeSlot]
                rw [hFree, List.length_tail]
                rw [List.length_cons] at hEnough
                omega
              refine
                Triple.seq
                  ((launchStream4ShardOnSlot_spec
                    (hHeld.slots.idle physical
                      (List.mem_singleton_self _)))) ?_
              intro _
              apply Triple.of_state
              rintro v rfl
              refine Triple.seq (ih hHeld.launch hLength) ?_
              intro _
              apply Triple.value
              rintro w ⟨hAfter, hLeft⟩
              refine ⟨hAfter, fun _ => hLeft (Or.inl ?_)⟩
              exact
                List.append_ne_nil_of_right_ne_nil _
                  (List.cons_ne_nil _ _)

/-
  The launches go on until nothing is pending or no slot is
  left.
-/
theorem launchPendingStream4Shards_spec
    (hSlots : 0 < config.stream4ActiveSortSlots) :
    Triple (Stream4Books config [] [])
      (launchPendingStream4Shards config)
      (fun _ t =>
        Stream4Books config [] [] t ∧
          (t.stream4.pending = [] ∨ t.stream4.busySlots ≠ []))
      E := by
  apply Triple.of_state
  intro s hBooks
  apply Triple.seq (releaseCompletedStream4Slots_spec hBooks)
  intro _
  apply Triple.read
  rintro t ⟨hReleased, -⟩
  refine
    (launchOnFreeSlots_spec _ hReleased.books le_rfl).post ?_
  rintro _ u ⟨hAfter, hLeft⟩
  refine ⟨hAfter, hLeft ?_⟩
  by_cases hFree : t.stream4.freeSlots = []
  · exact
      Or.inl (hReleased.books.slots.busy_ne_nil hSlots hFree)
  · exact Or.inr hFree

/- A slot, and a bank for it where there is one. -/
theorem launchBlocking_spec
    (hSlots : 0 < config.stream4ActiveSortSlots) :
    Triple (Stream4Books config [] []) (launchBlocking config fuel)
      (fun _ => Stream4Books config [] []) expectedStop := by
  apply Triple.of_state
  intro s hBooks
  apply Triple.seq
    (acquireStream4SlotBlocking_spec hSlots hBooks)
  intro slot
  apply Triple.of_state
  intro t hAcquired
  apply Triple.seq
    (takeLaunchablePendingStream4Shard_spec hAcquired.books)
  intro found
  cases found with
  | none =>
      apply Triple.update
      rintro u ⟨rfl, -⟩
      exact hAcquired.books.returnFreeSlot
  | some physical =>
      apply Triple.of_state
      rintro u ⟨hTaken, -, -⟩
      exact (launchTaken_spec hTaken).post fun _ _ hPost => hPost.1

----------------
-- Draining
----------------

/- Nothing is pending and nothing is being sorted. -/
structure Drained
    (config : DispatchConfig)
    (rank : Rank) : Prop where
  books : Stream4Books config [] [] rank
  pending : rank.stream4.pending = []
  busy : rank.stream4.busySlots = []

/- The drain ends with nothing pending and no busy slot. -/
theorem drainPendingStream4Shards_spec
    (hSlots : 0 < config.stream4ActiveSortSlots) :
    Triple (Stream4Books config [] [])
      (drainPendingStream4Shards config fuel)
      (fun _ => Drained config) expectedStop := by
  have hLoop :
      Triple (Stream4Books config [] [])
        (Hoare.repeatUntil .stalled fuel (drainRound config fuel))
        (fun _ t =>
          Stream4Books config [] [] t ∧ t.stream4.pending = [])
        expectedStop := by
    refine Triple.repeatUntil ?_ fun _ _ => Expected.stalled
    apply Triple.read
    intro s hBooks
    refine Triple.branch ?_ ?_
    · intro hPending
      apply Triple.value
      rintro t rfl
      exact ⟨hBooks, hPending⟩
    · intro _
      refine
        Triple.seq
          ((launchPendingStream4Shards_spec hSlots).pre ?_) ?_
      · rintro t rfl
        exact hBooks
      · intro _
        apply Triple.read
        rintro t ⟨hAfter, hLeft⟩
        refine Triple.branch ?_ ?_
        · intro _
          apply Triple.value
          rintro u rfl
          exact hAfter
        · intro hPending
          refine Triple.branch ?_ ?_
          · intro hBusy
            rcases hLeft with hNone | hSome
            · exact absurd hNone hPending
            · exact absurd hBusy hSome
          · intro _
            refine
              Triple.seq ((launchBlocking_spec hSlots).pre ?_) ?_
            · rintro u rfl
              exact hAfter
            · intro _
              exact Triple.value fun _ hBooks => hBooks
  apply Triple.seq hLoop
  intro _
  apply Triple.of_state
  rintro s ⟨hBooks, hPending⟩
  refine (waitAllStream4Slots_spec hBooks).post ?_
  rintro _ t ⟨hReleased, hBusy⟩
  exact ⟨hReleased.books, hReleased.pending.trans hPending, hBusy⟩

/- A wait changes nothing where nothing is busy. -/
theorem Drained.wait
    (hDrained : Drained config s) :
    Triple (fun t => t = s) (waitAllStream4Slots config fuel)
      (fun _ => Drained config) expectedStop := by
  refine (waitAllStream4Slots_spec hDrained.books).post ?_
  rintro _ t ⟨hReleased, hBusy⟩
  exact
    ⟨hReleased.books, hReleased.pending.trans hDrained.pending,
      hBusy⟩

/- Sorting leaves stream 3 as it is. -/
theorem with_quiet
    {α : Type}
    {program : Dispatch α}
    {Q : α → Rank → Prop}
    (hTriple : Triple P program Q expectedStop)
    (hWithin : Within Sorts program) :
    Triple (fun s => P s ∧ s.Quiet) program
      (fun a t => Q a t ∧ t.Quiet) expectedStop :=
  (hTriple.and
      (hWithin.keeps fun _ _ hSorts => hSorts.quiet)).stop_mono
    fun _ _ hStop => hStop.1

/-
  A program of sorts appends nothing, so what was sorted stays
  sorted.
-/
theorem with_settled
    {α : Type}
    {program : Dispatch α}
    {Q : α → Rank → Prop}
    (physical : Nat)
    (hTriple : Triple P program Q expectedStop)
    (hWithin : Within Sorts program) :
    Triple (fun s => P s ∧ s.Quiet ∧ s.Settled physical) program
      (fun a t => Q a t ∧ t.Quiet ∧ t.Settled physical)
      expectedStop := by
  have hKept :
      Triple (fun s => s.Quiet ∧ s.Settled physical) program
        (fun _ t => t.Quiet ∧ t.Settled physical)
        (fun _ t => t.Quiet ∧ t.Settled physical) :=
    hWithin.keeps fun _ _ hSorts hBoth =>
      ⟨hSorts.quiet hBoth.1,
        hSorts.settled hBoth.1 physical hBoth.2⟩
  exact (hTriple.and hKept).stop_mono fun _ _ hStop => hStop.1

/- A bank that is flushed under pressure is left settled. -/
theorem pressureFlushShard_spec
    (hSlots : 0 < config.stream4ActiveSortSlots)
    (hInside : physical < config.storageShardCount) :
    Triple (fun s => Drained config s ∧ s.Quiet)
      (pressureFlushShard config fuel physical)
      (fun _ s =>
        Drained config s ∧ s.Quiet ∧ s.Settled physical)
      expectedStop := by
  apply Triple.of_state
  rintro s ⟨hDrained, hQuiet⟩
  have hAcquire :
      Triple (fun t => t = s)
        (acquireStream4SlotBlocking config fuel)
        (fun slot t => Acquired config [] slot s t ∧ t.Quiet)
        expectedStop := by
    refine
      (with_quiet
        (acquireStream4SlotBlocking_spec hSlots hDrained.books)
        (acquireStream4SlotBlocking_within config fuel)).pre ?_
    rintro t rfl
    exact ⟨rfl, hQuiet⟩
  apply Triple.seq hAcquire
  intro slot
  apply Triple.of_state
  rintro t ⟨hAcquired, hStill⟩
  have hPending : t.stream4.pending = [] :=
    hAcquired.pending.trans hDrained.pending
  have hBusy : t.stream4.busySlots = [] := by
    have hSub := hAcquired.busy
    rw [hDrained.busy] at hSub
    exact List.eq_nil_of_subset_nil hSub
  have hIdle :
      (t.ownBank physical).stream4.logicalRunning
          (logicalShard physical) =
        false :=
    hAcquired.books.slots.not_running hBusy _
  apply Triple.update_bind
  apply Triple.seq (launchStream4ShardOnSlot_spec hIdle)
  intro _
  apply Triple.of_state
  rintro u rfl
  have hLaunched :=
    hAcquired.books.pressureLaunch hStill hPending hBusy hInside
  have hOwned :
      ((t.ownBank physical).launchStream4
          (.pressureLaunched physical) physical slot).Settled
        physical := by
    left
    dsimp only [Rank.launchStream4, Rank.ownBank]
    rw [Function.update_self]
    exact Nat.one_ne_zero
  refine
    Triple.conseq
      (with_settled physical (waitAllStream4Slots_spec hLaunched)
        (waitAllStream4Slots_within config fuel))
      ?_ ?_ fun _ _ hStop => hStop
  · rintro v rfl
    exact ⟨rfl, ⟨hStill.idle, hStill.list⟩, hOwned⟩
  · rintro _ v ⟨⟨hReleased, hNone⟩, hQuiet', hSettled⟩
    exact
      ⟨⟨hReleased.books, hReleased.pending.trans hPending, hNone⟩,
        hQuiet', hSettled⟩

/- A look at a drained rank. -/
theorem Drained.observed
    (hDrained : Drained config s) :
    Drained config (s.observed config) := by
  have hSame := (observed_stream4 config s).1
  exact
    ⟨hDrained.books.observed, by rw [hSame]; exact hDrained.pending,
      by rw [hSame]; exact hDrained.busy⟩

/- A look at a quiet rank. -/
theorem Rank.Quiet.observed
    (hQuiet : s.Quiet) :
    (s.observed config).Quiet :=
  (observed_sorts config s).quiet hQuiet

/-
  At the end of a drain a bank is at rest, so what is unsorted
  is what the banks say.
-/
theorem Drained.unsorted
    (hDrained : Drained config s)
    (hQuiet : s.Quiet)
    (hSettled : s.Settled physical) :
    unsortedRows s.trace.bankEvents physical = 0 := by
  rcases hDrained.books.banks with ⟨phases, hBanks⟩
  rw [← hBanks.dirty physical]
  rcases hSettled with hOwned | hNone
  · rcases (hBanks.processing physical).mp hOwned with
      hListed | hSorts
    · have hMem := (hBanks.waiting physical).mpr hListed
      rw [Rank.waiting, hQuiet.list, hDrained.pending] at hMem
      exact absurd hMem List.not_mem_nil
    · rcases (hBanks.sorting physical).mpr hSorts with
        ⟨slot, hJob⟩
      have hMem :=
        (hDrained.books.slots.jobs slot physical hJob).1
      rw [hDrained.busy] at hMem
      exact absurd hMem List.not_mem_nil
  · exact hNone

/- The banks that a walk has passed stay settled. -/
theorem pressureFlushShards_spec
    (hSlots : 0 < config.stream4ActiveSortSlots) :
    Triple (fun s => Drained config s ∧ s.Quiet)
      (Hoare.forEach (List.range config.storageShardCount)
        (pressureFlushShard config fuel))
      (fun _ s =>
        Drained config s ∧ s.Quiet ∧
          ∀ physical < config.storageShardCount,
            s.Settled physical)
      expectedStop := by
  let J : List Nat → Rank → Prop := fun rest s =>
    Drained config s ∧ s.Quiet ∧
      ∀ physical < config.storageShardCount,
        physical ∉ rest → s.Settled physical
  have hEach :
      Triple (J (List.range config.storageShardCount))
        (Hoare.forEach (List.range config.storageShardCount)
          (pressureFlushShard config fuel))
        (fun _ => J []) expectedStop := by
    apply Triple.forEach
    intro physical rest hSuffix
    have hMem :
        physical ∈ List.range config.storageShardCount :=
      hSuffix.subset List.mem_cons_self
    have hWithin :
        Within Sorts (pressureFlushShard config fuel physical) :=
      pressureFlushShard_within config fuel physical
    let Passed : Rank → Prop := fun s =>
      s.Quiet ∧
        ∀ other < config.storageShardCount,
          other ∉ physical :: rest → s.Settled other
    have hKept :
        Triple Passed (pressureFlushShard config fuel physical)
          (fun _ => Passed) fun _ => Passed :=
      hWithin.keeps fun _ _ hSorts hPassed =>
        ⟨hSorts.quiet hPassed.1, fun other hOther hNot =>
          hSorts.settled hPassed.1 other
            (hPassed.2 other hOther hNot)⟩
    refine
      Triple.conseq
        ((pressureFlushShard_spec hSlots
          (List.mem_range.mp hMem)).and hKept)
        ?_ ?_ fun _ _ hStop => hStop.1
    · rintro s ⟨hDrained, hQuiet, hPassed⟩
      exact ⟨⟨hDrained, hQuiet⟩, hQuiet, hPassed⟩
    · rintro _ t ⟨⟨hDrained, hQuiet, hHere⟩, -, hPassed⟩
      refine ⟨hDrained, hQuiet, fun other hOther hNot => ?_⟩
      by_cases hSame : other = physical
      · rw [hSame]
        exact hHere
      · exact
          hPassed other hOther
            (List.not_mem_cons_of_ne_of_not_mem hSame hNot)
  refine Triple.conseq hEach ?_ ?_ fun _ _ hStop => hStop
  · rintro s ⟨hDrained, hQuiet⟩
    exact
      ⟨hDrained, hQuiet, fun physical hInside hNot =>
        absurd (List.mem_range.mpr hInside) hNot⟩
  · rintro _ t ⟨hDrained, hQuiet, hAll⟩
    exact
      ⟨hDrained, hQuiet, fun physical hInside =>
        hAll physical hInside List.not_mem_nil⟩

/- A flush under pressure leaves no bank with rows to sort. -/
theorem pressureFlushStream4_spec
    (hSlots : 0 < config.stream4ActiveSortSlots) :
    Triple (fun s => Stream4Books config [] [] s ∧ s.Quiet)
      (pressureFlushStream4 config fuel)
      (fun _ s =>
        Drained config s ∧ s.Quiet ∧
          ∀ physical < config.storageShardCount,
            s.Settled physical)
      expectedStop := by
  apply Triple.seq
    (with_quiet (drainPendingStream4Shards_spec hSlots)
      (drainPendingStream4Shards_within config fuel))
  intro _
  have hWait :
      Triple (Drained config) (waitAllStream4Slots config fuel)
        (fun _ => Drained config) expectedStop :=
    Triple.of_state fun s hDrained => hDrained.wait
  apply Triple.seq
    (with_quiet hWait (waitAllStream4Slots_within config fuel))
  intro _
  apply Triple.seq (pressureFlushShards_spec hSlots)
  intro _
  refine throwIfStreamFatalError_spec ?_ _
  rintro s ⟨hDrained, hQuiet, hAll⟩
  exact
    ⟨hDrained.observed, hQuiet.observed, fun physical hInside =>
      (observed_sorts config s).settled hQuiet physical
        (hAll physical hInside)⟩

/- Nothing was appended at the start. -/
theorem initialRank_quiet
    (schedule : List (List DeviceEvent))
    (replies : List Reply) :
    (initialRank config schedule replies).Quiet :=
  ⟨rfl, rfl⟩

/- Both books of the first state. -/
theorem initialRank_stream4Books
    (schedule : List (List DeviceEvent))
    (replies : List Reply) :
    Stream4Books config [] []
      (initialRank config schedule replies) where
  banks := ⟨_, initialRank_bankBooks config schedule replies⟩
  slots := by
    constructor
    case slots =>
      rw [initialRank, List.append_nil]
      exact List.Perm.refl _
    case jobs =>
      intro slot physical hJob
      cases hJob
    case inside =>
      exact fun slot hBusy => absurd hBusy List.not_mem_nil
    case running =>
      exact fun slot hBusy => absurd hBusy List.not_mem_nil
    case distinct =>
      exact fun slot hBusy => absurd hBusy List.not_mem_nil
    case busy =>
      intro shard hRunning
      cases hRunning
    case queued =>
      intro physical
      exact iff_of_false Bool.false_ne_true List.not_mem_nil
    case idle =>
      exact fun physical hTaken => absurd hTaken List.not_mem_nil

----------------
-- The Ready List
----------------

/- An idle stream is given work by the host only. -/
theorem deviceEvent_idle
    {rank : Rank}
    (event : DeviceEvent)
    (hIdle : rank.device.stage = .idle) :
    (rank.deviceEvent config event).device.stage = .idle := by
  cases event with
  | stream4Complete slot cleanCount =>
      rw [Rank.deviceEvent]
      cases rank.device.slotJob slot with
      | none => exact hIdle
      | some physical => exact hIdle
  | ringComplete ring => exact hIdle
  | stream3Advance rows sendTotal =>
      rw [Rank.deviceEvent, hIdle]
      exact hIdle
  | templates ring busy => exact hIdle
  | stop => exact hIdle

/- So a look leaves it idle. -/
theorem observed_idle
    {rank : Rank}
    (hIdle : rank.device.stage = .idle) :
    (rank.observed config).device.stage = .idle := by
  have hEvents :
      ∀ (events : List DeviceEvent) (rank : Rank),
        rank.device.stage = .idle →
          (events.foldl (Rank.deviceEvent config)
              rank).device.stage = .idle := by
    intro events
    induction events with
    | nil => exact fun _ hSame => hSame
    | cons event events ih =>
        intro rank hSame
        exact ih _ (deviceEvent_idle event hSame)
  rw [Rank.observed]
  cases rank.schedule with
  | nil => exact hIdle
  | cons events schedule => exact hEvents events rank hIdle

/- The list is consumed as a whole. -/
theorem appendStream3ReadyQueue_spec :
    Triple
      (fun s =>
        Stream4Books config [] [] s ∧ s.device.stage = .idle)
      (appendStream3ReadyQueue config)
      (fun _ s => Stream4Books config [] [] s ∧ s.Quiet) E := by
  apply Triple.of_state
  rintro s ⟨hBooks, hIdle⟩
  have hStage : (s.observed config).device.stage = .idle :=
    observed_idle hIdle
  rcases hBooks.observed.consume with
    ⟨hLength, queue, hFold, hAfter⟩
  apply observe_bind
  refine Triple.branch ?_ ?_
  · intro hNone
    apply Triple.value
    rintro t rfl
    exact ⟨hBooks.observed, hStage, hNone⟩
  · intro _
    refine Triple.branch ?_ ?_
    · intro hLong
      exact absurd hLength (Nat.not_le.mpr hLong)
    · intro _
      have hStep :
          (((s.observed config).device.readyShardList.foldlM
                (Stream4Queue.enqueue config)
                (s.observed config).stream4) >>=
              fun next =>
                pure
                  (decide
                    (next.pending ≠
                      (s.observed config).stream4.pending),
                    next)) =
            (.ok
              (decide
                (queue.pending ≠
                  (s.observed config).stream4.pending),
                queue) :
              Except Exception (Bool × Stream4Queue)) := by
        rw [hFold]
        rfl
      apply Triple.update_bind
      refine (stepQueue_ok hStep).post ?_
      rintro _ t ⟨-, rfl⟩
      exact ⟨hAfter, hStage, rfl⟩

----------------
-- Copies
----------------

/- A copy is no bank. -/
theorem BankBooks.copyClean
    (hBooks : BankBooks config taken phases s) :
    BankBooks config taken phases s.copyClean where
  replay := hBooks.replay
  nodup := hBooks.nodup
  waiting := hBooks.waiting
  sorting := hBooks.sorting
  jobs := hBooks.jobs
  processing := hBooks.processing
  dirty := hBooks.dirty
  capacity := hBooks.capacity
  inside := hBooks.inside
  building := hBooks.building
  kept := hBooks.kept
  copied physical :=
    (Nat.le_add_right _ _).trans (hBooks.capacity physical)

/- The second copy, in the same way. -/
theorem BankBooks.copyDirty
    (hBooks : BankBooks config taken phases s) :
    BankBooks config taken phases (s.copyDirty config) where
  replay := hBooks.replay
  nodup := hBooks.nodup
  waiting := hBooks.waiting
  sorting := hBooks.sorting
  jobs := hBooks.jobs
  processing := hBooks.processing
  dirty := hBooks.dirty
  capacity := hBooks.capacity
  inside := hBooks.inside
  building := hBooks.building
  kept := hBooks.kept
  copied := hBooks.copied

/- The third copy, in the same way. -/
theorem BankBooks.copyProcessing
    (hBooks : BankBooks config taken phases s) :
    BankBooks config taken phases s.copyProcessing where
  replay := hBooks.replay
  nodup := hBooks.nodup
  waiting := hBooks.waiting
  sorting := hBooks.sorting
  jobs := hBooks.jobs
  processing := hBooks.processing
  dirty := hBooks.dirty
  capacity := hBooks.capacity
  inside := hBooks.inside
  building := hBooks.building
  kept := hBooks.kept
  copied := hBooks.copied

/- A step on the banks' side that leaves the slots alone. -/
theorem Stream4Books.of_banks
    {t : Rank}
    (hBooks : Stream4Books config held taken s)
    (hBanks :
      ∀ phases, BankBooks config taken phases s →
        ∃ after, BankBooks config taken after t)
    (hStream4 : t.stream4 = s.stream4)
    (hJobs : t.device.slotJob = s.device.slotJob) :
    Stream4Books config held taken t where
  banks := by
    rcases hBooks.banks with ⟨phases, hOld⟩
    exact hBanks phases hOld
  slots :=
    hBooks.slots.congr hStream4 fun _ _ hJob => by
      rwa [hJobs] at hJob

/- The three copies with the looks between them. -/
theorem copyCounts_spec :
    Triple (Stream4Books config held taken) (copyCounts config)
      (fun _ => Stream4Books config held taken) E := by
  apply Triple.of_state
  intro s hBooks
  apply observe_bind
  apply Triple.update_bind
  apply observe_bind
  apply Triple.update
  rintro t rfl
  have hClean :
      Stream4Books config held taken
        (s.observed config).copyClean :=
    hBooks.observed.of_banks
      (fun phases hBanks => ⟨phases, hBanks.copyClean⟩) rfl rfl
  exact
    hClean.observed.of_banks
      (fun phases hBanks => ⟨phases, hBanks.copyDirty⟩) rfl rfl

/- The question is asked of fresh copies. -/
theorem stream3HasWritableBuffer_spec (incomingBound : Nat) :
    Triple (Stream4Books config held taken)
      (stream3HasWritableBuffer config incomingBound)
      (fun _ => Stream4Books config held taken) E := by
  have hCopies :
      Triple (Stream4Books config held taken) (copyBanks config)
        (fun _ => Stream4Books config held taken) E := by
    apply Triple.seq copyCounts_spec
    intro _
    apply Triple.of_state
    intro s hBooks
    apply observe_bind
    apply Triple.update
    rintro t rfl
    exact
      hBooks.observed.of_banks
        (fun phases hBanks => ⟨phases, hBanks.copyProcessing⟩)
        rfl rfl
  apply Triple.seq hCopies
  intro _
  apply Triple.read
  intro s hBooks
  apply Triple.value
  rintro t rfl
  exact hBooks

----------------
-- Sorting Under Pressure
----------------

/- The stream may be given work whose list was read. -/
theorem Stream4Books.setStage
    {stage : Stream3Stage}
    (hBooks : Stream4Books config [] [] s)
    (hBuilding :
      stage.builds = true → s.device.readyShardList = []) :
    Stream4Books config [] [] (s.setStage stage) where
  banks := by
    rcases hBooks.banks with ⟨phases, hBanks⟩
    exact ⟨phases, hBanks.setStage hBuilding⟩
  slots := hBooks.slots.congr rfl fun _ _ hJob => hJob

/-
  A flush under pressure never finds its queues at odds. When it
  returns, no bank has a row that is not sorted.
-/
theorem pressureFlushStream4_leaves_sorted
    {config : DispatchConfig}
    (fuel : Nat)
    (hSlots : 0 < config.stream4ActiveSortSlots) :
    Triple (fun s => Stream4Books config [] [] s ∧ s.Quiet)
      (pressureFlushStream4 config fuel)
      (fun _ s =>
        s.stream4.pending = [] ∧
          s.stream4.busySlots = [] ∧
          ∀ physical < config.storageShardCount,
            unsortedRows s.trace.bankEvents physical = 0)
      expectedStop := by
  refine (pressureFlushStream4_spec hSlots).post ?_
  rintro _ s ⟨hDrained, hQuiet, hAll⟩
  exact
    ⟨hDrained.pending, hDrained.busy, fun physical hInside =>
      hDrained.unsorted hQuiet (hAll physical hInside)⟩

/- One shard, one slot and one ring of one parent. -/
def oneShard : DispatchConfig where
  worldSize := 1
  geometry := { shardCount := 1, shardCapacity := 4 }
  stream3BatchCandidates := 1
  stream4TriggerCandidates := 2
  stream4ActiveSortSlots := 1
  stream5RecvSlotCapacity := 1
  ringCount := 1
  ringSlotCount := 1
  inferenceParallelism := 1
  bMicro := 1
  globalThresholdUpdatePeriodShards := 0
  globalBeamWidthEffective := 1
  prefillBeforeWait := false
  capacity_lt := by decide

/- Whatever is under way is done at every look. -/
def oneShardEvents (looks : Nat) : List (List DeviceEvent) :=
  List.replicate looks
    [.ringComplete 0, .stream3Advance [0] 0,
      .stream4Complete 0 1]

/-
  Three rows arrive at the first look; later looks sort them.
-/
def oneShardAdvances : List (List DeviceEvent) :=
  [.stream3Advance [0, 0, 0] 0] :: [.stream3Advance [] 0] ::
    oneShardEvents 20

/- Three rows are collected, and their bank is listed. -/
def listedRank : Rank :=
  let rank := initialRank oneShard oneShardAdvances []
  let rank :=
    (rank.setStage (.collectRemote [0, 0, 0])).observed oneShard
  (rank.setStage (.buildReadyQueue true 0)).observed oneShard

/- The listed rank is in its books. -/
theorem listedRank_stream4Books :
    Stream4Books oneShard [] [] listedRank := by
  have hStart :=
    @initialRank_stream4Books oneShard oneShardAdvances []
  have hCollect :
      Stream4Books oneShard [] []
        ((initialRank oneShard oneShardAdvances []).setStage
          (.collectRemote [0, 0, 0])) :=
    hStart.setStage fun hBuilds =>
      absurd hBuilds Bool.false_ne_true
  exact (hCollect.observed.setStage fun _ => rfl).observed

/- What was pending and not sorted before the flush. -/
def flushListed : Dispatch (List Nat × Nat) := do
  let _ ← appendStream3ReadyQueue oneShard
  let rank ← get
  pressureFlushStream4 oneShard 6
  pure
    (rank.stream4.pending,
      unsortedRows rank.trace.bankEvents 0)

/- A bank with three rows is pending when the flush starts. -/
theorem pressureFlushStream4_leaves_sorted_oneShard :
    ∃ s,
      flushListed listedRank = .ok ([0], 3) s ∧
        s.stream4.pending = [] ∧
          s.stream4.busySlots = [] ∧
            unsortedRows s.trace.bankEvents 0 = 0 := by
  have hFlush :
      Triple
        (fun s =>
          Stream4Books oneShard [] [] s ∧
            s.device.stage = .idle)
        flushListed
        (fun _ s =>
          s.stream4.pending = [] ∧
            s.stream4.busySlots = [] ∧
              unsortedRows s.trace.bankEvents 0 = 0)
        expectedStop := by
    apply Triple.seq appendStream3ReadyQueue_spec
    intro _
    apply Triple.read
    intro rank hRank
    refine
      Triple.seq
        ((pressureFlushStream4_leaves_sorted 6
          (by decide : 0 < oneShard.stream4ActiveSortSlots)).pre
            fun _ hSame => hSame ▸ hRank) ?_
    intro _
    apply Triple.value
    rintro s ⟨hPending, hBusy, hSorted⟩
    exact ⟨hPending, hBusy, hSorted 0 (by decide)⟩
  have hValue :
      flushListed.run' listedRank = some ([0], 3) := by
    decide
  delta EStateM.run' EStateM.run at hValue
  cases hResult : flushListed listedRank with
  | ok value s =>
      rw [hResult] at hValue
      rw [Option.some.inj hValue] at hResult ⊢
      exact
        ⟨s, rfl,
          hFlush.of_ok ⟨listedRank_stream4Books, rfl⟩ hResult⟩
  | error stop s =>
      rw [hResult] at hValue
      cases hValue

end Sorting

end Dispatcher

end BeamSearch
