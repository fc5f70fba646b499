import BeamSearch.History.Books
import BeamSearch.History.CandidateHistory

/-
  The byte counters of the native history that does not prune.

  In the memory and the disk mode the commit counts the bytes.
  In the static mode it leaves them owed by the slot until the
  host takes the writer's result, and at the end no slot owes.

  Main declarations:
    * `Kept`
    * `pollSlots_spec`, `pumpCompleted_spec`
    * `runEvents_spec`
    * `unpruned_balanced`
-/

namespace BeamSearch

open Hoare Totals

namespace History

namespace Unpruned

variable {sizes : List Nat} {h t : CpuCandidateHistory}

----------------
-- Invariant
----------------

/- A future that was given work. -/
def Writer.valid : Writer → Bool
  | .idle => false
  | _ => true

/- A layer is on its way through the slot. -/
def Slot.active (slot : Slot) : Bool :=
  slot.copyPending || slot.writer.valid

/- What the commit left to be counted. -/
def owed (mode : HistoryMode) (slot : Slot) : Nat :=
  if mode = .staticHybrid ∧ slot.active = true then
    16 * slot.host.length
  else
    0

/- What all slots still owe. -/
def owedTotal (h : CpuCandidateHistory) : Nat :=
  ∑ i ∈ Finset.range h.slotCount, owed h.mode (h.slots i)

/- `sizes` are the sizes of the committed batches. -/
structure Kept
    (sizes : List Nat)
    (h : CpuCandidateHistory) : Prop where
  free :
    ∀ i, (h.slots i).free = true → (h.slots i).active = false
  placed :
    h.mode = .staticHybrid →
      ∀ i result,
        (h.slots i).writer = .done (.ok result) →
        result.place ≠ none
  counts : h.depthCounts = sizes
  stored : h.bytesStored = 16 * sizes.sum
  pruned : h.bytesPruned = 0
  tiers :
    h.bytesStoredRam + h.bytesStoredDisk + owedTotal h =
      h.bytesStored

/- Loops end. -/
def Fueled (stop : Stop) (_ : CpuCandidateHistory) : Prop :=
  stop ≠ .outOfFuel

/- The books of the native history. -/
def books (h : CpuCandidateHistory) : Books where
  counts := h.depthCounts
  stored := h.bytesStored
  storedRam := h.bytesStoredRam
  storedDisk := h.bytesStoredDisk
  pruned := h.bytesPruned

/- No slot has work. -/
def AllIdle (h : CpuCandidateHistory) : Prop :=
  ∀ i < h.slotCount, (h.slots i).active = false

/- A slot without work owes nothing. -/
theorem owed_of_idle
    {mode : HistoryMode}
    {slot : Slot}
    (hIdle : slot.active = false) :
    owed mode slot = 0 := by
  rw [owed, hIdle]
  exact if_neg fun hNot => nomatch hNot.2

/- Where no slot has work the books balance. -/
theorem Kept.balanced
    (hKept : Kept sizes h)
    (hIdle : AllIdle h) :
    (books h).Balanced sizes := by
  have hOwed : owedTotal h = 0 :=
    Finset.sum_eq_zero fun i hi =>
      owed_of_idle (hIdle i (Finset.mem_range.mp hi))
  have hTiers := hKept.tiers
  have hStored := hKept.stored
  have hPruned := hKept.pruned
  exact
    { tiers := by
        change h.bytesStored = h.bytesStoredRam + h.bytesStoredDisk
        omega
      current := by
        change h.bytesStored = 16 * h.depthCounts.sum
        rw [hKept.counts]
        exact hStored
      written := by
        change h.bytesStored + h.bytesPruned = 16 * sizes.sum
        omega }

/- The counters of two states are the same. -/
structure SameBooks (h t : CpuCandidateHistory) : Prop where
  mode : t.mode = h.mode
  slotCount : t.slotCount = h.slotCount
  counts : t.depthCounts = h.depthCounts
  stored : t.bytesStored = h.bytesStored
  storedRam : t.bytesStoredRam = h.bytesStoredRam
  storedDisk : t.bytesStoredDisk = h.bytesStoredDisk
  pruned : t.bytesPruned = h.bytesPruned

/- The same books. -/
theorem SameBooks.refl (h : CpuCandidateHistory) :
    SameBooks h h where
  mode := rfl
  slotCount := rfl
  counts := rfl
  stored := rfl
  storedRam := rfl
  storedDisk := rfl
  pruned := rfl

/- One slot changes what is owed. -/
theorem owedTotal_update
    {i : Nat}
    {slot : Slot}
    (hMode : t.mode = h.mode)
    (hCount : t.slotCount = h.slotCount)
    (hSlots : t.slots = Function.update h.slots i slot)
    (hi : i < h.slotCount) :
    owedTotal t + owed h.mode (h.slots i) =
      owedTotal h + owed h.mode slot := by
  have hEach :
      ∀ j,
        owed h.mode (Function.update h.slots i slot j) =
          Function.update
            (fun j => owed h.mode (h.slots j)) i
            (owed h.mode slot) j :=
    fun j =>
      Function.apply_update (fun _ => owed h.mode) h.slots i
        slot j
  rw [owedTotal, owedTotal, hCount, hMode, hSlots,
    Finset.sum_congr rfl fun j _ => hEach j]
  exact sum_range_update _ hi _

/- With one slot changed a free slot still has nothing to do. -/
theorem Kept.free_update
    (hKept : Kept sizes h)
    {i : Nat}
    {slot : Slot}
    (hSlots : t.slots = Function.update h.slots i slot)
    (hFree : slot.free = true → slot.active = false)
    (j : Nat)
    (hOther : (t.slots j).free = true) :
    (t.slots j).active = false := by
  rw [hSlots] at hOther ⊢
  by_cases hEq : j = i
  · subst hEq
    rw [Function.update_self] at hOther ⊢
    exact hFree hOther
  · rw [Function.update_of_ne hEq] at hOther ⊢
    exact hKept.free j hOther

/- And a finished writer still has found its place. -/
theorem Kept.placed_update
    (hKept : Kept sizes h)
    {i : Nat}
    {slot : Slot}
    (hSlots : t.slots = Function.update h.slots i slot)
    (hStatic : h.mode = .staticHybrid)
    (hPlaced :
      ∀ result, slot.writer = .done (.ok result) →
        result.place ≠ none)
    (j : Nat)
    (result : MaterializeResult)
    (hDone : (t.slots j).writer = .done (.ok result)) :
    result.place ≠ none := by
  rw [hSlots] at hDone
  by_cases hEq : j = i
  · subst hEq
    rw [Function.update_self] at hDone
    exact hPlaced result hDone
  · rw [Function.update_of_ne hEq] at hDone
    exact hKept.placed hStatic j result hDone

/- A slot may change as long as it owes the same. -/
theorem Kept.change
    (hKept : Kept sizes h)
    (hSame : SameBooks h t)
    {i : Nat}
    {slot : Slot}
    (hSlots : t.slots = Function.update h.slots i slot)
    (hActive : slot.active = (h.slots i).active)
    (hHost : slot.host = (h.slots i).host)
    (hFree : slot.free = true → (h.slots i).free = true)
    (hPlaced :
      h.mode = .staticHybrid →
        ∀ result, slot.writer = .done (.ok result) →
          result.place ≠ none) :
    Kept sizes t ∧
      ∀ j, (t.slots j).active = (h.slots j).active := by
  have hSlot :
      ∀ j,
        (t.slots j).active = (h.slots j).active ∧
          (t.slots j).host = (h.slots j).host := by
    intro j
    rw [hSlots]
    by_cases hEq : j = i
    · subst hEq
      rw [Function.update_self]
      exact ⟨hActive, hHost⟩
    · rw [Function.update_of_ne hEq]
      exact ⟨rfl, rfl⟩
  have hOwed : owedTotal t = owedTotal h := by
    rw [owedTotal, owedTotal, hSame.slotCount, hSame.mode]
    apply Finset.sum_congr rfl
    intro j _
    rw [owed, owed, (hSlot j).1, (hSlot j).2]
  refine
    ⟨{ free :=
         hKept.free_update hSlots fun hNow =>
           hActive.trans (hKept.free i (hFree hNow))
       placed := fun hMode => ?_
       counts := hSame.counts.trans hKept.counts
       stored := hSame.stored.trans hKept.stored
       pruned := hSame.pruned.trans hKept.pruned
       tiers := by
         rw [hSame.storedRam, hSame.storedDisk, hOwed,
           hSame.stored]
         exact hKept.tiers },
      fun j => (hSlot j).1⟩
  rw [hSame.mode] at hMode
  exact hKept.placed_update hSlots hMode (hPlaced hMode)

----------------
-- Writers
----------------

/- The fallback keeps the books. -/
theorem reserveStaticRamFallback_same
    (h : CpuCandidateHistory)
    (count : Nat)
    (diskError : String) :
    SameBooks h
        (reserveStaticRamFallback h count diskError).2 ∧
      (reserveStaticRamFallback h count diskError).2.slots =
        h.slots := by
  rw [reserveStaticRamFallback]
  split
  · exact ⟨⟨rfl, rfl, rfl, rfl, rfl, rfl, rfl⟩, rfl⟩
  · exact ⟨⟨rfl, rfl, rfl, rfl, rfl, rfl, rfl⟩, rfl⟩

/- The writer of the hybrid mode keeps the books. -/
theorem materializeStatic_same
    (h : CpuCandidateHistory)
    (slot : Slot)
    (diskError : Option String) :
    SameBooks h (materializeStatic h slot diskError).2 ∧
      (materializeStatic h slot diskError).2.slots =
        h.slots := by
  rw [materializeStatic]
  split
  · split
    · exact ⟨SameBooks.refl h, rfl⟩
    · exact reserveStaticRamFallback_same h _ _
  · exact ⟨SameBooks.refl h, rfl⟩
  · exact ⟨SameBooks.refl h, rfl⟩

/-
  So does every writer: it only says what is to be published.
-/
theorem materializeDepth_same
    (h : CpuCandidateHistory)
    (slot : Slot)
    (diskError : Option String) :
    SameBooks h (materializeDepth h slot diskError).2 ∧
      (materializeDepth h slot diskError).2.slots =
        h.slots := by
  rw [materializeDepth.eq_def]
  split
  · exact ⟨SameBooks.refl h, rfl⟩
  · split
    · exact ⟨SameBooks.refl h, rfl⟩
    · exact ⟨SameBooks.refl h, rfl⟩
  · exact materializeStatic_same h slot diskError

/- In the static mode a written layer has a place. -/
theorem materializeDepth_placed
    {slot : Slot}
    {diskError : Option String}
    {result : MaterializeResult}
    (hMode : h.mode = .staticHybrid)
    (hDone :
      (materializeDepth h slot diskError).1 = .ok result) :
    result.place ≠ none := by
  rw [materializeDepth.eq_def, hMode] at hDone
  dsimp only at hDone
  cases hStored : (materializeStatic h slot diskError).1 with
  | error stop =>
      rw [hStored] at hDone
      cases hDone
  | ok place =>
      rw [hStored] at hDone
      cases hDone
      exact Option.some_ne_none place

/- A thread's end shows in no slot but its own. -/
structure Ran (h t : CpuCandidateHistory) : Prop where
  slotCount : t.slotCount = h.slotCount
  active : ∀ j, (t.slots j).active = (h.slots j).active
  copyPending :
    ∀ j, (t.slots j).copyPending = (h.slots j).copyPending
  free : ∀ j, (t.slots j).free = (h.slots j).free

/- Nothing ran. -/
theorem Ran.refl (h : CpuCandidateHistory) : Ran h h where
  slotCount := rfl
  active _ := rfl
  copyPending _ := rfl
  free _ := rfl

/- One run after the other. -/
theorem Ran.trans
    {u : CpuCandidateHistory}
    (hFirst : Ran h t)
    (hSecond : Ran t u) :
    Ran h u where
  slotCount := hSecond.slotCount.trans hFirst.slotCount
  active j := (hSecond.active j).trans (hFirst.active j)
  copyPending j :=
    (hSecond.copyPending j).trans (hFirst.copyPending j)
  free j := (hSecond.free j).trans (hFirst.free j)

/- The layer that was running is done; the slot owes the same. -/
theorem Kept.written
    (hKept : Kept sizes h)
    {i : Nat}
    {diskError : Option String}
    {written : Except Failure MaterializeResult × CpuCandidateHistory}
    (hRunning : (h.slots i).writer = .running)
    (hWritten :
      materializeDepth h (h.slots i) diskError = written) :
    Kept sizes
        (setSlot written.2 i
          { h.slots i with writer := .done written.1 }) ∧
      Ran h
        (setSlot written.2 i
          { h.slots i with writer := .done written.1 }) ∧
      ((setSlot written.2 i
          { h.slots i with writer := .done written.1 }).slots
        i).writer ≠ .running := by
  have hSame := materializeDepth_same h (h.slots i) diskError
  rw [hWritten] at hSame
  have hBooks :
      SameBooks h
        (setSlot written.2 i
          { h.slots i with writer := .done written.1 }) :=
    { mode := hSame.1.mode
      slotCount := hSame.1.slotCount
      counts := hSame.1.counts
      stored := hSame.1.stored
      storedRam := hSame.1.storedRam
      storedDisk := hSame.1.storedDisk
      pruned := hSame.1.pruned }
  have hSlots :
      (setSlot written.2 i
          { h.slots i with writer := .done written.1 }).slots =
        Function.update h.slots i
          { h.slots i with writer := .done written.1 } := by
    rw [← hSame.2]
    rfl
  have hActive :
      ({ h.slots i with writer := .done written.1 } :
          Slot).active =
        (h.slots i).active := by
    rw [Slot.active, Slot.active, hRunning]
    rfl
  have hNext :=
    hKept.change hBooks hSlots hActive rfl
      (fun hFree => hFree)
      (fun hMode result hDone => by
        rw [← hWritten] at hDone
        exact
          materializeDepth_placed hMode (Writer.done.inj hDone))
  have hOther :
      ∀ j, j ≠ i →
        (setSlot written.2 i
            { h.slots i with writer := .done written.1 }).slots
            j =
          h.slots j := by
    intro j hNe
    rw [hSlots, Function.update_of_ne hNe]
  have hSelf :
      (setSlot written.2 i
          { h.slots i with writer := .done written.1 }).slots i =
        { h.slots i with writer := .done written.1 } := by
    rw [hSlots, Function.update_self]
  refine
    ⟨hNext.1,
      { slotCount := hSame.1.slotCount
        active := hNext.2
        copyPending := fun j => ?_
        free := fun j => ?_ }, ?_⟩
  · by_cases hEq : j = i
    · rw [hEq, hSelf]
    · rw [hOther j hEq]
  · by_cases hEq : j = i
    · rw [hEq, hSelf]
    · rw [hOther j hEq]
  · rw [hSelf]
    exact fun hRunning => nomatch hRunning

/- A writer may run while the books stay. -/
theorem runWriter_spec
    (i : Nat)
    (diskError : Option String)
    (h : CpuCandidateHistory)
    (hKept : Kept sizes h) :
    Triple (fun t => t = h) (runWriter i diskError)
      (fun _ t =>
        Kept sizes t ∧ Ran h t ∧ (t.slots i).writer ≠ .running)
      Fueled := by
  apply Triple.read
  rintro t rfl
  cases hWriter : (t.slots i).writer with
  | running =>
      have hNext := @Kept.written sizes t hKept i diskError _ hWriter rfl
      rintro u rfl
      exact hNext
  | idle =>
      apply Triple.value
      rintro u rfl
      refine ⟨hKept, Ran.refl u, ?_⟩
      rw [hWriter]
      exact fun hRunning => nomatch hRunning
  | done result =>
      apply Triple.value
      rintro u rfl
      refine ⟨hKept, Ran.refl u, ?_⟩
      rw [hWriter]
      exact fun hRunning => nomatch hRunning

/- So may several. -/
theorem runWriters_spec
    (work : List (Nat × Option String))
    (h : CpuCandidateHistory)
    (hKept : Kept sizes h) :
    Triple (fun t => t = h) (runWriters work)
      (fun _ t => Kept sizes t ∧ Ran h t) Fueled := by
  have hWalk :
      Triple (fun t => Kept sizes t ∧ Ran h t)
        (runWriters work)
        (fun _ t => Kept sizes t ∧ Ran h t) Fueled := by
    apply Triple.forEach
      (J := fun _ t => Kept sizes t ∧ Ran h t)
    rintro job rest -
    apply Triple.of_state
    rintro t ⟨hKept', hRan⟩
    apply (runWriter_spec job.1 job.2 t hKept').post
    rintro _ u ⟨hNext, hStep, -⟩
    exact ⟨hNext, hRan.trans hStep⟩
  apply hWalk.pre
  rintro t rfl
  exact ⟨hKept, Ran.refl t⟩

----------------
-- A Visit To A Slot
----------------

/- A copy that is done changes no book. -/
theorem pollCopy_spec
    (waiting : Bool)
    (poll : Poll)
    (i : Nat)
    (h : CpuCandidateHistory)
    (hKept : Kept sizes h) :
    Triple (fun t => t = h) (pollCopy waiting poll i)
      (fun any t =>
        Kept sizes t ∧
          t.slotCount = h.slotCount ∧
          (∀ j, (t.slots j).active = (h.slots j).active) ∧
          ((h.slots i).active = false → any = false) ∧
          (waiting = true → (t.slots i).copyPending = false))
      Fueled := by
  apply Triple.read
  rintro t rfl
  apply Triple.branch
  · intro hCopied
    rw [Bool.and_eq_true] at hCopied
    have hActive : (t.slots i).active = true := by
      rw [Slot.active, hCopied.1, Bool.true_or]
    have hNext :=
      hKept.change
        (t :=
          setSlot t i
            { t.slots i with
              copyPending := false
              writer := .running })
        ⟨rfl, rfl, rfl, rfl, rfl, rfl, rfl⟩ rfl
        (hActive.symm ▸ rfl) rfl (fun hFree => hFree)
        (fun _ _ hDone => nomatch hDone)
    apply Triple.write
    apply Triple.value
    rintro u rfl
    refine ⟨hNext.1, rfl, hNext.2, fun hIdle => ?_, fun _ => ?_⟩
    · rw [hActive] at hIdle
      cases hIdle
    · dsimp only [setSlot]
      rw [Function.update_self]
  · intro hNot
    apply Triple.value
    rintro u rfl
    refine
      ⟨hKept, rfl, fun _ => rfl, fun _ => rfl, fun hWaiting => ?_⟩
    rw [hWaiting, Bool.true_or, Bool.and_true] at hNot
    exact Bool.eq_false_iff.mpr hNot

/- The bytes that the slot owed are in a tier. -/
theorem publishDepth_counts
    {published : CpuCandidateHistory}
    {slot : Slot}
    {result : MaterializeResult}
    (hPublish : publishDepth h slot result = .ok published)
    (hActive : slot.active = true)
    (hPlaced : h.mode = .staticHybrid → result.place ≠ none) :
    published.mode = h.mode ∧
      published.slotCount = h.slotCount ∧
      published.slots = h.slots ∧
      published.depthCounts = h.depthCounts ∧
      published.bytesStored = h.bytesStored ∧
      published.bytesPruned = h.bytesPruned ∧
      published.bytesStoredRam + published.bytesStoredDisk =
        h.bytesStoredRam + h.bytesStoredDisk +
          owed h.mode slot := by
  rw [publishDepth.eq_def] at hPublish
  cases hMode : h.mode with
  | ram =>
      rw [hMode] at hPublish
      dsimp only at hPublish
      split at hPublish
      · cases hPublish
      · cases hPublish
        exact ⟨rfl, rfl, rfl, rfl, rfl, rfl, rfl⟩
  | disk =>
      rw [hMode] at hPublish
      cases hPublish
      exact ⟨hMode, rfl, rfl, rfl, rfl, rfl, rfl⟩
  | staticHybrid =>
      have hOwed :
          owed .staticHybrid slot = 16 * slot.host.length :=
        if_pos ⟨rfl, hActive⟩
      rw [hMode] at hPublish
      dsimp only at hPublish
      split at hPublish
      · cases hPublish
      · split at hPublish
        · cases hPublish
        · cases hPublish
          rw [hOwed]
          cases hPlace : result.place with
          | none => exact absurd hPlace (hPlaced hMode)
          | some place =>
              rcases place with ⟨location, offset⟩
              cases location with
              | ram =>
                  refine ⟨rfl, rfl, rfl, rfl, rfl, rfl, ?_⟩
                  dsimp only [creditPlace]
                  omega
              | disk =>
                  refine ⟨rfl, rfl, rfl, rfl, rfl, rfl, ?_⟩
                  dsimp only [creditPlace]
                  omega

/- A failure leaves the history as it was. -/
theorem orStop_spec
    {α : Type}
    (h : CpuCandidateHistory)
    (result : Except Failure α) :
    Triple (fun t => t = h) (orStop result)
      (fun a t => result = .ok a ∧ t = h) Fueled := by
  cases result with
  | ok a => exact Triple.value fun t hT => ⟨rfl, hT⟩
  | error failure =>
      apply Triple.stop
      rintro t -
      exact fun hStop => nomatch hStop

/- A visit to slot `i`. -/
structure Visited
    (sizes : List Nat)
    (i : Nat)
    (h : CpuCandidateHistory)
    (any : Bool)
    (t : CpuCandidateHistory) : Prop where
  kept : Kept sizes t
  slotCount : t.slotCount = h.slotCount
  others :
    ∀ j, j ≠ i → (t.slots j).active = (h.slots j).active
  idle :
    (h.slots i).active = false →
      any = false ∧ (t.slots i).active = false

/- A published layer: what its slot owed is now in the books. -/
theorem Kept.taken
    {published : CpuCandidateHistory}
    {i : Nat}
    {result : MaterializeResult}
    (hKept : Kept sizes h)
    (hi : i < h.slotCount)
    (hCopied : (h.slots i).copyPending = false)
    (hDone : (h.slots i).writer = .done (.ok result))
    (hPublish :
      publishDepth h (h.slots i) result = .ok published) :
    Kept sizes
        (setSlot published i
          { h.slots i with writer := .idle, free := true }) ∧
      published.slotCount = h.slotCount ∧
      published.slots = h.slots := by
  have hActive : (h.slots i).active = true := by
    rw [Slot.active, hDone]
    exact Bool.or_true _
  rcases publishDepth_counts hPublish hActive
      (fun hMode => hKept.placed hMode i result hDone) with
    ⟨hMode, hCount, hSlots, hCounts, hStored, hPruned, hTiers⟩
  have hIdle :
      ({ h.slots i with writer := .idle, free := true } :
          Slot).active = false := by
    rw [Slot.active]
    dsimp only
    rw [hCopied]
    rfl
  have hUpdate :
      (setSlot published i
            { h.slots i with
              writer := .idle
              free := true }).slots =
        Function.update h.slots i
          { h.slots i with writer := .idle, free := true } := by
    rw [setSlot, hSlots]
  have hOwed :
      owedTotal
          (setSlot published i
            { h.slots i with writer := .idle, free := true }) +
          owed h.mode (h.slots i) =
        owedTotal h := by
    refine
      Eq.trans (owedTotal_update hMode hCount hUpdate hi) ?_
    rw [owed_of_idle hIdle, Nat.add_zero]
  have hOld := hKept.tiers
  refine
    ⟨{ free := hKept.free_update hUpdate fun _ => hIdle
       placed := fun hStatic =>
         hKept.placed_update hUpdate (hMode.symm.trans hStatic)
           fun r hWriter => ?_
       counts := hCounts.trans hKept.counts
       stored := hStored.trans hKept.stored
       pruned := hPruned.trans hKept.pruned
       tiers := ?_ }, hCount, hSlots⟩
  · cases hWriter
  · change
      published.bytesStoredRam + published.bytesStoredDisk +
          owedTotal _ =
        published.bytesStored
    omega

/- The result of a writer is taken once. -/
theorem takeResult_spec
    (i : Nat)
    (h : CpuCandidateHistory)
    (hi : i < h.slotCount)
    (hKept : Kept sizes h)
    (hCopied : (h.slots i).copyPending = false) :
    Triple (fun t => t = h) (takeResult i)
      (fun any t =>
        Visited sizes i h any t ∧
          ((h.slots i).writer ≠ .running →
            (t.slots i).active = false))
      Fueled := by
  apply Triple.read
  rintro t rfl
  cases hWriter : (t.slots i).writer with
  | done result =>
      apply Triple.seq (orStop_spec t result)
      intro materialized
      apply Triple.of_state
      rintro u ⟨rfl, rfl⟩
      apply Triple.seq (orStop_spec u _)
      intro published
      apply Triple.of_state
      rintro v ⟨hPublish, rfl⟩
      rcases hKept.taken hi hCopied hWriter hPublish with
        ⟨hNext, hCount, hSlots⟩
      have hSelf :
          ((setSlot published i
              { v.slots i with
                writer := .idle, free := true }).slots
            i).active = false := by
        dsimp only [setSlot]
        rw [Function.update_self, Slot.active]
        dsimp only
        rw [hCopied]
        rfl
      apply Triple.write
      apply Triple.value
      rintro w rfl
      refine
        ⟨{ kept := hNext
           slotCount := hCount
           others := fun j hNe => ?_
           idle := fun hIdle => ?_ }, fun _ => hSelf⟩
      · dsimp only [setSlot]
        rw [Function.update_of_ne hNe, hSlots]
      · have hActive : (v.slots i).active = true := by
          rw [Slot.active, hWriter]
          exact Bool.or_true _
        rw [hActive] at hIdle
        cases hIdle
  | idle =>
      apply Triple.value
      rintro u rfl
      have hIdle : (u.slots i).active = false := by
        rw [Slot.active, hCopied, hWriter]
        rfl
      exact
        ⟨{ kept := hKept
           slotCount := rfl
           others := fun _ _ => rfl
           idle := fun _ => ⟨rfl, hIdle⟩ }, fun _ => hIdle⟩
  | running =>
      apply Triple.value
      rintro u rfl
      refine
        ⟨{ kept := hKept
           slotCount := rfl
           others := fun _ _ => rfl
           idle := fun hIdle => ⟨rfl, hIdle⟩ }, fun hNot => ?_⟩
      exact absurd rfl hNot

/- A poll of a writer. -/
theorem pollWriter_spec
    (waiting : Bool)
    (poll : Poll)
    (i : Nat)
    (h : CpuCandidateHistory)
    (hi : i < h.slotCount)
    (hKept : Kept sizes h) :
    Triple (fun t => t = h) (pollWriter waiting poll i)
      (fun any t =>
        Visited sizes i h any t ∧
          (waiting = true → (h.slots i).copyPending = false →
            (t.slots i).active = false))
      Fueled := by
  apply Triple.seq (runWriters_spec (poll.work i) h hKept)
  intro _
  apply Triple.read
  rintro t ⟨hRanKept, hRan⟩
  have hti : i < t.slotCount := hRan.slotCount.symm ▸ hi
  apply Triple.branch
  · intro hSkip
    apply Triple.value
    rintro u rfl
    refine
      ⟨{ kept := hRanKept
         slotCount := hRan.slotCount
         others := fun j _ => hRan.active j
         idle := fun hIdle => ⟨rfl, (hRan.active i).trans hIdle⟩ },
        fun _ hCopied => ?_⟩
    rw [hRan.copyPending, hCopied, Bool.false_or] at hSkip
    exact hRanKept.free i hSkip
  · intro hVisit
    rw [Bool.not_eq_true, Bool.or_eq_false_iff] at hVisit
    apply Triple.branch
    · intro _
      apply Triple.seq
        (runWriter_spec i (poll.last i) t hRanKept)
      intro _
      apply Triple.of_state
      rintro u ⟨hLastKept, hLast, hEnded⟩
      have hCopied : (u.slots i).copyPending = false := by
        rw [hLast.copyPending]
        exact hVisit.1
      apply
        (takeResult_spec i u (hLast.slotCount.symm ▸ hti)
          hLastKept hCopied).post
      rintro any v ⟨hVisited, hFreed⟩
      exact
        ⟨{ kept := hVisited.kept
           slotCount :=
             (hVisited.slotCount.trans hLast.slotCount).trans
               hRan.slotCount
           others := fun j hNe =>
             ((hVisited.others j hNe).trans
               (hLast.active j)).trans (hRan.active j)
           idle := fun hIdle =>
             hVisited.idle
               (((hLast.active i).trans (hRan.active i)).trans
                 hIdle) },
          fun _ _ => hFreed hEnded⟩
    · intro hPolling
      apply
        (takeResult_spec i t hti hRanKept hVisit.1).post
      rintro any v ⟨hVisited, -⟩
      exact
        ⟨{ kept := hVisited.kept
           slotCount := hVisited.slotCount.trans hRan.slotCount
           others := fun j hNe =>
             (hVisited.others j hNe).trans (hRan.active j)
           idle := fun hIdle =>
             hVisited.idle ((hRan.active i).trans hIdle) },
          fun hWaiting => absurd hWaiting hPolling⟩

/- A poll of a slot. -/
theorem pollSlot_spec
    (waiting : Bool)
    (poll : Poll)
    (i : Nat)
    (h : CpuCandidateHistory)
    (hi : i < h.slotCount)
    (hKept : Kept sizes h) :
    Triple (fun t => t = h) (pollSlot waiting poll i)
      (fun any t =>
        Visited sizes i h any t ∧
          (waiting = true → (t.slots i).active = false))
      Fueled := by
  apply Triple.seq (pollCopy_spec waiting poll i h hKept)
  intro copied
  apply Triple.of_state
  rintro t ⟨hCopyKept, hCount, hActive, hStill, hCopied⟩
  apply Triple.seq
    (pollWriter_spec waiting poll i t (hCount.symm ▸ hi)
      hCopyKept)
  intro written
  apply Triple.value
  rintro u ⟨hVisited, hFreed⟩
  refine
    ⟨{ kept := hVisited.kept
       slotCount := hVisited.slotCount.trans hCount
       others := fun j hNe =>
         (hVisited.others j hNe).trans (hActive j)
       idle := fun hIdle => ?_ },
      fun hWaiting => hFreed hWaiting (hCopied hWaiting)⟩
  have hWritten := hVisited.idle ((hActive i).trans hIdle)
  rw [hStill hIdle, hWritten.1]
  exact ⟨rfl, hWritten.2⟩

----------------
-- Pumping
----------------

/- A poll of all slots; after a wait none has work. -/
theorem pollSlots_spec
    (waiting : Bool)
    (poll : Poll) :
    Triple (Kept sizes) (pollSlots waiting poll)
      (fun _ t => Kept sizes t ∧ (waiting = true → AllIdle t))
      Fueled := by
  apply Triple.read
  intro h hKept
  -- Slots the walk has left behind are idle.
  have hWalk :=
    Triple.anyOf_walk
      (J := fun rest t =>
        Kept sizes t ∧
          t.slotCount = h.slotCount ∧
          (waiting = true →
            ∀ i < t.slotCount, i ∉ rest →
              (t.slots i).active = false))
      (E := Fueled)
      (fun i rest hSuffix => by
        apply Triple.of_state
        rintro t ⟨hKept', hCount, hBehind⟩
        have hMem : i ∈ List.range h.slotCount :=
          hSuffix.subset List.mem_cons_self
        have hi : i < t.slotCount := by
          rw [hCount]
          exact List.mem_range.mp hMem
        apply (pollSlot_spec waiting poll i t hi hKept').post
        rintro any u ⟨hVisited, hFreed⟩
        refine
          ⟨hVisited.kept, hVisited.slotCount.trans hCount,
            fun hWaiting j hj hNot => ?_⟩
        by_cases hEq : j = i
        · rw [hEq]
          exact hFreed hWaiting
        · rw [hVisited.others j hEq]
          rw [hVisited.slotCount] at hj
          exact
            hBehind hWaiting j hj fun hIn =>
              (List.mem_cons.mp hIn).elim hEq hNot)
  apply hWalk.conseq
  · rintro t rfl
    refine ⟨hKept, rfl, fun _ i hi hNot => ?_⟩
    exact absurd (List.mem_range.mpr hi) hNot
  · rintro _ t ⟨hKept', -, hBehind⟩
    exact
      ⟨hKept', fun hWaiting i hi =>
        hBehind hWaiting i hi List.not_mem_nil⟩
  · exact fun _ _ hFueled => hFueled

/- A poll of slots without work does nothing. -/
theorem pollSlots_idle
    (waiting : Bool)
    (poll : Poll) :
    Triple (fun t => Kept sizes t ∧ AllIdle t)
      (pollSlots waiting poll)
      (fun any t => any = false ∧ Kept sizes t ∧ AllIdle t)
      Fueled := by
  apply Triple.read
  rintro h ⟨hKept, hIdle⟩
  have hWalk :
      Triple
        (fun t =>
          t.slotCount = h.slotCount ∧ Kept sizes t ∧ AllIdle t)
        (anyOf (List.range h.slotCount) (pollSlot waiting poll))
        (fun any t =>
          any = false ∧
            t.slotCount = h.slotCount ∧ Kept sizes t ∧ AllIdle t)
        Fueled := by
    apply Triple.anyOf_false
    intro i hMem
    apply Triple.of_state
    rintro t ⟨hCount, hKept', hIdle'⟩
    have hi : i < t.slotCount := by
      rw [hCount]
      exact List.mem_range.mp hMem
    apply (pollSlot_spec waiting poll i t hi hKept').post
    rintro any u ⟨hVisited, -⟩
    have hSelf := hVisited.idle (hIdle' i hi)
    refine
      ⟨hSelf.1, hVisited.slotCount.trans hCount, hVisited.kept,
        fun j hj => ?_⟩
    by_cases hEq : j = i
    · rw [hEq]
      exact hSelf.2
    · rw [hVisited.others j hEq]
      rw [hVisited.slotCount] at hj
      exact hIdle' j hj
  apply hWalk.conseq
  · rintro t rfl
    exact ⟨rfl, hKept, hIdle⟩
  · exact fun any t hEnd => ⟨hEnd.1, hEnd.2.2⟩
  · exact fun _ _ hFueled => hFueled

/- Is a layer on its way? -/
def waitingFor (h : CpuCandidateHistory) : Nat :=
  if ∀ i < h.slotCount, (h.slots i).active = false then 0 else 1

/- Waiting for the slots takes one pass and one idle one. -/
theorem waitSlots_spec
    (poll : Poll) :
    Triple (Kept sizes)
      (repeatUntil Stop.outOfFuel 2 do
        let progressed ← pollSlots true poll
        pure !progressed)
      (fun _ t => Kept sizes t ∧ AllIdle t)
      Fueled := by
  have hBody :
      ∀ h, Kept sizes h →
        Triple (fun t => t = h)
          (do
            let progressed ← pollSlots true poll
            pure !progressed)
          (fun done t =>
            if done then Kept sizes t ∧ AllIdle t
            else
              Kept sizes t ∧ waitingFor t < waitingFor h)
          Fueled := by
    intro h hKept
    by_cases hIdle : AllIdle h
    · have hStart :
          Triple (fun t => t = h) (pollSlots true poll)
            (fun any t => any = false ∧ Kept sizes t ∧ AllIdle t)
            Fueled :=
        (pollSlots_idle true poll).pre
          fun t hT => hT.symm ▸ ⟨hKept, hIdle⟩
      apply Triple.seq hStart
      intro progressed
      apply Triple.value
      rintro t ⟨rfl, hEnd⟩
      exact hEnd
    · have hStart :
          Triple (fun t => t = h) (pollSlots true poll)
            (fun _ t =>
              Kept sizes t ∧ (true = true → AllIdle t))
            Fueled :=
        (pollSlots_spec true poll).pre fun t hT => hT ▸ hKept
      apply Triple.seq hStart
      intro progressed
      apply Triple.value
      rintro t ⟨hNext, hAll⟩
      cases progressed with
      | false => exact ⟨hNext, hAll rfl⟩
      | true =>
          have hBefore : waitingFor h = 1 := if_neg hIdle
          have hAfter : waitingFor t = 0 := if_pos (hAll rfl)
          refine ⟨hNext, ?_⟩
          rw [hBefore, hAfter]
          exact Nat.zero_lt_one
  apply (Triple.repeatUntil_of_measure waitingFor 2 hBody).pre
  intro h hKept
  refine ⟨hKept, ?_⟩
  rw [waitingFor]
  split
  · exact Nat.zero_lt_two
  · exact Nat.one_lt_two

/- The pump ends: a second poll finds nothing to do. -/
theorem pumpCompleted_spec
    (waiting : Bool)
    (poll : Poll) :
    Triple (Kept sizes) (pumpCompleted waiting poll)
      (fun _ t => Kept sizes t ∧ (waiting = true → AllIdle t))
      Fueled := by
  cases waiting with
  | true =>
      apply (waitSlots_spec poll).post
      exact fun _ t hEnd => ⟨hEnd.1, fun _ => hEnd.2⟩
  | false =>
      apply Triple.seq (pollSlots_spec false poll)
      intro _
      apply Triple.value
      exact fun t hEnd => ⟨hEnd.1, fun hWaiting => nomatch hWaiting⟩

----------------
-- Commits
----------------

/- A slot was taken that has no layer on its way. -/
def Acquired
    (sizes : List Nat)
    (i : Nat)
    (t : CpuCandidateHistory) : Prop :=
  Kept sizes t ∧ i < t.slotCount ∧ (t.slots i).active = false

/- The slot that was taken owes nothing. -/
theorem Kept.acquired
    {i : Nat}
    (hKept : Kept sizes h)
    (hFound : findFree h = some i) :
    Acquired sizes i (takeSlot h i) := by
  rcases firstFree_eq_some hFound with ⟨hi, hFree⟩
  have hNext :=
    hKept.change
      (t := takeSlot h i)
      ⟨rfl, rfl, rfl, rfl, rfl, rfl, rfl⟩ rfl rfl rfl
      (fun hTaken => nomatch hTaken)
      (fun hMode result hDone => hKept.placed hMode i result hDone)
  exact
    ⟨hNext.1, hi, (hNext.2 i).trans (hKept.free i hFree)⟩

/- A slot is acquired, or the call fails. -/
theorem acquireSlot_spec
    (poll again : Poll) :
    Triple (Kept sizes) (acquireSlot poll again)
      (Acquired sizes) Fueled := by
  apply acquire_spec
  · exact
      (pumpCompleted_spec false poll).post fun _ _ hEnd => hEnd.1
  · apply (pumpCompleted_spec true again).post
    exact fun _ t hEnd =>
      ⟨hEnd.1, fun _ hStop => Stop.noConfusion hStop⟩
  · exact fun h i hKept hFound => hKept.acquired hFound

/- The reservation keeps the books. -/
theorem reserveStaticLocation_same
    {reserved : CpuCandidateHistory}
    {depthIndex count : Nat}
    {place : DepthLocation}
    (hReserve :
      reserveStaticLocation h depthIndex count =
        .ok (place, reserved)) :
    SameBooks h reserved ∧ reserved.slots = h.slots := by
  rw [reserveStaticLocation] at hReserve
  rcases except_bind_eq_ok hReserve with
    ⟨reservation, -, hReserve⟩
  split at hReserve
  · rcases except_bind_eq_ok hReserve with ⟨_, -, hReserve⟩
    cases hReserve
    exact ⟨⟨rfl, rfl, rfl, rfl, rfl, rfl, rfl⟩, rfl⟩
  · cases hReserve
    exact ⟨SameBooks.refl _, rfl⟩

/- The slot gets its place; the books stay. -/
theorem placeSlot_same
    {placed : CpuCandidateHistory}
    {i depthIndex count : Nat}
    (hPlace : placeSlot h i depthIndex count = .ok placed) :
    SameBooks h placed ∧
      ∃ place,
        placed.slots =
          Function.update h.slots i
            { h.slots i with place := place } := by
  have hUnchanged :
      h.slots =
        Function.update h.slots i
          { h.slots i with place := (h.slots i).place } :=
    (Function.update_eq_self i h.slots).symm
  rw [placeSlot.eq_def] at hPlace
  split at hPlace
  · rcases except_bind_eq_ok hPlace with
      ⟨⟨place, reserved⟩, hReserve, hPlace⟩
    cases hPlace
    rcases reserveStaticLocation_same hReserve with
      ⟨hSame, hSlots⟩
    refine
      ⟨⟨hSame.mode, hSame.slotCount, hSame.counts,
          hSame.stored, hSame.storedRam, hSame.storedDisk,
          hSame.pruned⟩, some place, ?_⟩
    dsimp only [setSlot]
    rw [hSlots]
  · cases hPlace
    exact
      ⟨⟨rfl, rfl, rfl, rfl, rfl, rfl, rfl⟩, _, hUnchanged⟩
  · cases hPlace
    exact ⟨SameBooks.refl _, _, hUnchanged⟩

/- The commit counts the bytes, or leaves the slot to owe them. -/
theorem countBytes_counts
    (h : CpuCandidateHistory)
    (count : Nat)
    (slot : Slot)
    (hHost : slot.host.length = count)
    (hActive : slot.active = true) :
    (countBytes h count).mode = h.mode ∧
      (countBytes h count).slotCount = h.slotCount ∧
      (countBytes h count).slots = h.slots ∧
      (countBytes h count).depthCounts =
        h.depthCounts ++ [count] ∧
      (countBytes h count).bytesStored =
        h.bytesStored + 16 * count ∧
      (countBytes h count).bytesPruned = h.bytesPruned ∧
      (countBytes h count).bytesStoredRam +
            (countBytes h count).bytesStoredDisk +
          owed h.mode slot =
        h.bytesStoredRam + h.bytesStoredDisk + 16 * count := by
  rw [countBytes.eq_def]
  cases hMode : h.mode with
  | ram =>
      have hOwed : owed .ram slot = 0 :=
        if_neg fun hNot => nomatch hNot.1
      refine ⟨rfl, rfl, rfl, rfl, ?_, rfl, ?_⟩
      · dsimp only
        omega
      · rw [hOwed]
        dsimp only
        omega
  | disk =>
      have hOwed : owed .disk slot = 0 :=
        if_neg fun hNot => nomatch hNot.1
      refine ⟨rfl, rfl, rfl, rfl, ?_, rfl, ?_⟩
      · dsimp only
        omega
      · rw [hOwed]
        dsimp only
        omega
  | staticHybrid =>
      have hOwed :
          owed .staticHybrid slot = 16 * slot.host.length :=
        if_pos ⟨rfl, hActive⟩
      refine ⟨rfl, rfl, rfl, rfl, ?_, rfl, ?_⟩
      · dsimp only
        omega
      · rw [hOwed, hHost]

/- A commit: the batch is owed by its slot. -/
theorem Kept.committed
    {placed : CpuCandidateHistory}
    {i depthIndex : Nat}
    {batch : List CandidateMeta}
    (hAcquired : Acquired sizes i h)
    (hPlace :
      placeSlot (fillSlot h i depthIndex batch) i depthIndex
          batch.length =
        .ok placed) :
    Kept (sizes ++ [batch.length])
      (countBytes placed batch.length) := by
  rcases hAcquired with ⟨hKept, hi, hIdle⟩
  rcases placeSlot_same hPlace with ⟨hSame, place, hPlaced⟩
  -- What becomes of the slot.
  have hSlot :
      ∃ slot : Slot,
        placed.slots = Function.update h.slots i slot ∧
        slot.host = batch ∧
        slot.active = true ∧
        slot.free = false ∧
        slot.writer = (h.slots i).writer := by
    refine
      ⟨{ h.slots i with
          host := batch
          depthIndex := depthIndex
          place := place
          copyPending := true
          free := false }, ?_, rfl, ?_, rfl, rfl⟩
    · rw [hPlaced]
      dsimp only [fillSlot, setSlot]
      rw [Function.update_self, Function.update_idem]
    · rw [Slot.active]
      exact Bool.true_or _
  rcases hSlot with
    ⟨slot, hSlots, hHost, hActive, hTaken, hWriter⟩
  rcases countBytes_counts placed batch.length slot
      (hHost ▸ rfl) hActive with
    ⟨hMode, hCount, hSlots', hCounts, hStored, hPruned, hTiers⟩
  have hMode' : (countBytes placed batch.length).mode = h.mode :=
    hMode.trans hSame.mode
  have hWriterIdle : (h.slots i).writer.valid = false := by
    rw [Slot.active, Bool.or_eq_false_iff] at hIdle
    exact hIdle.2
  have hUpdate :
      (countBytes placed batch.length).slots =
        Function.update h.slots i slot :=
    hSlots'.trans hSlots
  have hOwed :=
    owedTotal_update hMode' (hCount.trans hSame.slotCount)
      hUpdate hi
  rw [owed_of_idle hIdle] at hOwed
  have hOld := hKept.tiers
  have hOldStored := hKept.stored
  have hSizes :
      (sizes ++ [batch.length]).sum = sizes.sum + batch.length := by
    rw [List.sum_append, List.sum_singleton]
  have hBefore := hSame.stored
  have hBeforeRam := hSame.storedRam
  have hBeforeDisk := hSame.storedDisk
  change placed.bytesStored = h.bytesStored at hBefore
  change placed.bytesStoredRam = h.bytesStoredRam at hBeforeRam
  change placed.bytesStoredDisk = h.bytesStoredDisk at hBeforeDisk
  have hPlacedMode : placed.mode = h.mode := hSame.mode
  rw [hPlacedMode] at hTiers
  exact
    { free :=
        hKept.free_update hUpdate fun hFree =>
          absurd hFree (by rw [hTaken]; exact Bool.false_ne_true)
      placed := fun hStatic =>
        hKept.placed_update hUpdate (hMode'.symm.trans hStatic)
          fun result hDone => by
            rw [hWriter.symm.trans hDone] at hWriterIdle
            cases hWriterIdle
      counts := by
        rw [hCounts]
        rw [hSame.counts]
        change h.depthCounts ++ _ = _
        rw [hKept.counts]
      stored := by omega
      pruned :=
        (hPruned.trans hSame.pruned).trans hKept.pruned
      tiers := by omega }

/- A commit adds its batch. -/
theorem commitSlot_spec
    (i : Nat)
    (batch : List CandidateMeta)
    (depthIndex : Nat) :
    Triple (Acquired sizes i) (commitSlot i depthIndex batch)
      (fun _ => Kept (sizes ++ [batch.length])) Fueled := by
  apply Triple.read
  intro h hAcquired
  apply Triple.branch
  · exact fun _ => Triple.stop fun _ _ hStop => nomatch hStop
  · intro _
    apply Triple.write
    apply Triple.branch
    · exact fun _ => Triple.stop fun _ _ hStop => nomatch hStop
    · intro _
      apply Triple.seq (orStop_spec _ _)
      intro placed
      rintro t ⟨hPlace, -⟩
      exact Kept.committed hAcquired hPlace

----------------
-- Runs
----------------

/- One call adds what it commits. -/
theorem runEvent_spec
    (event : HistoryEvent) :
    Triple (Kept sizes) (runEvent event)
      (fun _ =>
        Kept (sizes ++ batchSizes event.batches))
      Fueled := by
  cases event with
  | pump poll =>
      apply (pumpCompleted_spec false poll).post
      intro _ t hEnd
      exact (List.append_nil sizes).symm ▸ hEnd.1
  | finish poll =>
      apply (pumpCompleted_spec true poll).post
      intro _ t hEnd
      exact (List.append_nil sizes).symm ▸ hEnd.1
  | commit poll again work batch =>
      apply Triple.seq (acquireSlot_spec poll again)
      intro i
      apply Triple.of_state
      rintro h ⟨hKept, hi, hIdle⟩
      apply Triple.seq (runWriters_spec work h hKept)
      intro _
      apply Triple.read
      rintro t ⟨hNext, hRan⟩
      apply (commitSlot_spec i batch t.depthCounts.length).pre
      rintro u rfl
      exact
        ⟨hNext, hRan.slotCount.symm ▸ hi,
          (hRan.active i).trans hIdle⟩

/- All calls, by the rule for runs. -/
theorem runEvents_spec
    (events : List HistoryEvent)
    (sizes : List Nat) :
    Triple (Kept sizes) (runEvents events)
      (fun _ =>
        Kept (sizes ++ batchSizes (committedBatches events)))
      Fueled := by
  rw [committedBatches, batchSizes, List.map_flatMap]
  exact
    forEach_adds (fun seen event => @runEvent_spec seen event)
      sizes events

/- The first history owes nothing. -/
theorem emptyHistory_kept (s : Settings) :
    Kept [] (emptyHistory s) where
  free _ _ := rfl
  placed _ _ _ hDone := nomatch hDone
  counts := rfl
  stored := rfl
  pruned := rfl
  tiers := by
    have hOwed : owedTotal (emptyHistory s) = 0 :=
      Finset.sum_eq_zero fun _ _ => owed_of_idle rfl
    rw [hOwed]
    rfl

/- So the books start balanced. -/
theorem initializeHistory_kept
    {s : Settings}
    {start : CpuCandidateHistory}
    (hNew : initializeHistory s = .ok start) :
    Kept [] start := by
  have hEmpty := emptyHistory_kept s
  rw [initializeHistory] at hNew
  split at hNew
  · cases hNew
  · rcases except_bind_eq_ok hNew with ⟨pinned, -, hNew⟩
    rcases except_bind_eq_ok hNew with ⟨staging, -, hNew⟩
    split at hNew
    · rw [withArenas] at hNew
      dsimp only at hNew
      split at hNew
      · cases hNew
      · rcases except_bind_eq_ok hNew with ⟨budget, -, hNew⟩
        split at hNew
        · cases hNew
        · rcases except_bind_eq_ok hNew with ⟨layout, -, hNew⟩
          cases hNew
          exact
            { free := hEmpty.free
              placed := hEmpty.placed
              counts := hEmpty.counts
              stored := hEmpty.stored
              pruned := hEmpty.pruned
              tiers := hEmpty.tiers }
    · cases hNew
      exact hEmpty

/- A run and the wait at its end. -/
def runAll
    (events : List HistoryEvent)
    (last : Poll) : HistoryM PUnit := do
  runEvents events
  finishAll last

/-
  Without pruning the books are balanced at the end, whichever
  mode it is, whatever the disk does, and in whatever order the
  copies and the writers end.
-/
theorem unpruned_balanced
    {s : Settings}
    {start : CpuCandidateHistory}
    (hNew : initializeHistory s = .ok start)
    (events : List HistoryEvent)
    (last : Poll) :
    match runAll events last start with
    | .ok _ h =>
        (books h).Balanced (batchSizes (committedBatches events))
    | .error stop _ => stop ≠ .outOfFuel := by
  have hRun :
      Triple (Kept []) (runAll events last)
        (fun _ h =>
          (books h).Balanced
            (batchSizes (committedBatches events)))
        Fueled := by
    apply Triple.seq (runEvents_spec events [])
    intro _
    apply (pumpCompleted_spec true last).post
    exact fun _ h hEnd => hEnd.1.balanced (hEnd.2 rfl)
  have hEnd := hRun start (initializeHistory_kept hNew)
  cases hResult : runAll events last start with
  | ok value h =>
      rw [hResult] at hEnd
      exact hEnd
  | error stop h =>
      rw [hResult] at hEnd
      exact hEnd

end Unpruned

end History

end BeamSearch
