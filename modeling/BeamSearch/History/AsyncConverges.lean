import BeamSearch.History.AsyncJobs

/-
  The asynchronous pruner ends where the sequential one does.

  A committed layer is in a slot or published. When no slot is
  taken and no job is left, every pair is clean; clean rows are
  unique.

  Main declarations:
    * `SlotsInv`, `HistoryInv`
    * `pumpCompleted_spec`
    * `runEvents_spec`
    * `async_converges`
-/

namespace BeamSearch

open Hoare Layers

namespace History

namespace Async

variable {batches : Nat → Option (List Entry)} {rows : Nat → Option (Rows Entry)}
    {h : CpuCandidateHistory} {log : List (List Entry)} {capacity : Nat}

----------------
-- Invariant Of The Slots
----------------

/- The layer of a depth in the log, where there is one. -/
def logged (log : List (List Entry)) (d : Nat) :
    Option (List Entry) :=
  log[d]?

/- A slot that is not free has a layer that is not published. -/
structure SlotsInv
    (log : List (List Entry))
    (batches : Nat → Option (List Entry))
    (h : CpuCandidateHistory) : Prop where
  published :
    ∀ d l, batches d = some l → logged log d = some l
  free :
    ∀ i < h.slotCount, (h.slots i).free = true →
      (h.slots i).copyPending = false
  busy :
    ∀ i < h.slotCount, (h.slots i).free = false →
      batches (h.slots i).depthIndex = none ∧
      logged log (h.slots i).depthIndex =
        some ((h.slots i).host.map entry) ∧
      ((h.slots i).copyPending = false →
        (h.slots i).writer =
          some ((h.slots i).host.map entry))
  apart :
    ∀ i < h.slotCount, ∀ j < h.slotCount,
      (h.slots i).free = false →
      (h.slots j).free = false →
      (h.slots i).depthIndex = (h.slots j).depthIndex →
      i = j
  covered :
    ∀ d, logged log d ≠ none → batches d = none →
      ∃ i < h.slotCount,
        (h.slots i).free = false ∧ (h.slots i).depthIndex = d

/- `log` are the committed layers. -/
structure HistoryInv
    (capacity : Nat)
    (log : List (List Entry))
    (h : CpuCandidateHistory) : Prop where
  slots : 0 < h.slotCount
  workers : 0 < h.workerCount
  capacity : h.slotCapacity = capacity
  size : h.size = log.length
  valid : ValidParents (logged log)
  state :
    ∃ batches rows,
      PruneInv batches rows h ∧ SlotsInv log batches h

/- The slots are no concern of the jobs. -/
theorem PruneInv.setSlot
    (hInv : PruneInv batches rows h)
    (i : Nat)
    (slot : Slot) :
    PruneInv batches rows (setSlot h i slot) where
  tracks := hInv.tracks
  bounded := hInv.bounded
  shown := hInv.shown
  ready := hInv.ready
  working := hInv.working
  apart := hInv.apart
  clean := hInv.clean
  owned := hInv.owned

/- Starting a writer keeps the slots as they should be. -/
theorem SlotsInv.startWriter
    (hInv : SlotsInv log batches h)
    (i : Nat) :
    SlotsInv log batches
      (setSlot h i (startWriter (h.slots i))) := by
  have hSlot :
      ∀ j,
        ((setSlot h i (Async.startWriter (h.slots i))).slots
              j).free =
            (h.slots j).free ∧
          ((setSlot h i (Async.startWriter (h.slots i))).slots
              j).depthIndex =
            (h.slots j).depthIndex ∧
          ((setSlot h i (Async.startWriter (h.slots i))).slots
              j).host =
            (h.slots j).host := by
    intro j
    dsimp only [Async.setSlot]
    by_cases hEq : j = i
    · subst hEq
      rw [Function.update_self]
      exact ⟨rfl, rfl, rfl⟩
    · rw [Function.update_of_ne hEq]
      exact ⟨rfl, rfl, rfl⟩
  exact
    { published := hInv.published
      free := fun j hj hFree => by
        rw [(hSlot j).1] at hFree
        dsimp only [Async.setSlot]
        by_cases hEq : j = i
        · subst hEq
          rw [Function.update_self]
          rfl
        · rw [Function.update_of_ne hEq]
          exact hInv.free j hj hFree
      busy := fun j hj hBusy => by
        rw [(hSlot j).1] at hBusy
        rw [(hSlot j).2.1, (hSlot j).2.2]
        have hOld := hInv.busy j hj hBusy
        refine ⟨hOld.1, hOld.2.1, ?_⟩
        dsimp only [Async.setSlot]
        by_cases hEq : j = i
        · subst hEq
          rw [Function.update_self]
          exact fun _ => rfl
        · rw [Function.update_of_ne hEq]
          exact hOld.2.2
      apart := fun j hj k hk hBusy hBusy' hSame => by
        rw [(hSlot j).1] at hBusy
        rw [(hSlot k).1] at hBusy'
        rw [(hSlot j).2.1, (hSlot k).2.1] at hSame
        exact hInv.apart j hj k hk hBusy hBusy' hSame
      covered := fun d hLogged hNone => by
        rcases hInv.covered d hLogged hNone with
          ⟨j, hj, hBusy, hDepth⟩
        exact
          ⟨j, hj, (hSlot j).1.trans hBusy,
            (hSlot j).2.1.trans hDepth⟩ }

/- Valid parents in the log are valid among the arrived batches. -/
theorem validParents_of_logged
    (hValid : ValidParents (logged log))
    (hLogged :
      ∀ d l, batches d = some l → logged log d = some l) :
    ValidParents batches := by
  intro d previous current hPrevious hCurrent
  exact
    hValid d previous current (hLogged d previous hPrevious)
      (hLogged (d + 1) current hCurrent)

/- A published layer marks the pair below it. -/
theorem PruneInv.publish
    {i : Nat}
    {data : List Entry}
    (hInv : PruneInv batches rows h)
    (hNew : batches (h.slots i).depthIndex = none)
    (hLt : (h.slots i).depthIndex < h.size)
    (hValid :
      ValidParents
        (Function.update batches (h.slots i).depthIndex
          (some data))) :
    PruneInv
      (Function.update batches (h.slots i).depthIndex
        (some data))
      (Function.update rows (h.slots i).depthIndex
        (some data.zipIdx))
      (publish h i data) := by
  have hView := hInv.tracks.view_insert hNew hValid
  have hMarked :
      ∀ e, e + 1 = (h.slots i).depthIndex →
        (Async.publish h i data).pruneDirty e = true := by
    intro e hNext
    dsimp only [Async.publish]
    rw [if_pos (by omega), ← hNext]
    exact Function.update_self ..
  have hOther :
      ∀ e, e + 1 ≠ (h.slots i).depthIndex →
        (Async.publish h i data).pruneDirty e =
          h.pruneDirty e := by
    intro e hNext
    dsimp only [Async.publish]
    split
    · exact Function.update_of_ne (by omega) ..
    · rfl
  have hUnseen : ∀ e, view rows e ≠ none →
      e ≠ (h.slots i).depthIndex := by
    rintro e hSome rfl
    exact (view_ne_none_iff hInv.tracks _).mp hSome hNew
  have hUnused : ¬ Uses h (h.slots i).depthIndex := by
    rintro ⟨job, hJob, hUse⟩
    rcases hInv.working job hJob with
      ⟨previous, current, hPrevious, hCurrent, -, -⟩
    rw [usesDepth_iff] at hUse
    rcases hUse with hUse | hUse
    · refine hUnseen _ ?_ hUse
      rw [hPrevious]
      exact Option.some_ne_none previous
    · refine hUnseen _ ?_ hUse
      rw [hCurrent]
      exact Option.some_ne_none current
  exact
    { tracks := hInv.tracks.insert hNew hValid
      bounded := fun d hd => by
        rw [Function.update_of_ne (by
          change h.size ≤ d at hd
          omega)]
        exact hInv.bounded d hd
      shown := fun d l hShown hNot => by
        rw [hView] at hShown
        dsimp only [Async.publish]
        by_cases hEq : d = (h.slots i).depthIndex
        · subst hEq
          rw [Function.update_self] at hShown
          cases hShown
          rw [Function.update_self, Function.update_self]
          exact ⟨rfl, rfl⟩
        · rw [Function.update_of_ne hEq] at hShown
          rw [Function.update_of_ne hEq,
            Function.update_of_ne hEq]
          exact hInv.shown d l hShown hNot
      ready := fun d hReady => by
        dsimp only [Async.publish] at hReady
        by_cases hEq : d = (h.slots i).depthIndex
        · subst hEq
          rw [Function.update_self]
          exact ⟨Option.some_ne_none data, hUnused⟩
        · rw [Function.update_of_ne hEq] at hReady
          rw [Function.update_of_ne hEq]
          exact hInv.ready d hReady
      working := fun job hJob => by
        rcases hInv.working job hJob with
          ⟨previous, current, hPrevious, hCurrent, hWork,
            hDirty⟩
        have hNe := hUnseen job.depthIndex (by
          rw [hPrevious]
          exact Option.some_ne_none previous)
        have hNeAbove := hUnseen (job.depthIndex + 1) (by
          rw [hCurrent]
          exact Option.some_ne_none current)
        rw [hView, Function.update_of_ne hNe,
          Function.update_of_ne hNeAbove, hOther _ hNeAbove]
        exact
          ⟨previous, current, hPrevious, hCurrent, hWork, hDirty⟩
      apart := hInv.apart
      clean := fun d hUpper hClear => by
        by_cases hNext : d + 1 = (h.slots i).depthIndex
        · rw [hMarked d hNext] at hClear
          cases hClear
        · rw [hOther d hNext] at hClear
          rw [Function.update_of_ne hNext] at hUpper
          have hWas := hInv.clean d hUpper hClear
          have hSelf : d ≠ (h.slots i).depthIndex := by
            rintro rfl
            exact hWas.1 hNew
          rw [Function.update_of_ne hSelf]
          refine ⟨hWas.1, ?_⟩
          intro below own hBelow hOwn
          rw [Function.update_of_ne hSelf] at hBelow
          rw [Function.update_of_ne hNext] at hOwn
          exact hWas.2 below own hBelow hOwn
      owned := hInv.owned }

/-
  A copied batch becomes its layer, and its slot may be
  written.
-/
theorem SlotsInv.publish
    {i : Nat}
    {data : List Entry}
    (hInv : SlotsInv log batches h)
    (hi : i < h.slotCount)
    (hBusy : (h.slots i).free = false)
    (hCopied : (h.slots i).copyPending = false)
    (hLogged :
      logged log (h.slots i).depthIndex = some data) :
    SlotsInv log
      (Function.update batches (h.slots i).depthIndex
        (some data))
      (publish h i data) := by
  have hSelf :
      ((Async.publish h i data).slots i).free = true ∧
        ((Async.publish h i data).slots i).copyPending =
          false := by
    dsimp only [Async.publish]
    rw [Function.update_self]
    exact ⟨rfl, hCopied⟩
  have hOther :
      ∀ j, j ≠ i →
        (Async.publish h i data).slots j = h.slots j := by
    intro j hNe
    dsimp only [Async.publish]
    exact Function.update_of_ne hNe ..
  have hNe :
      ∀ j, ((Async.publish h i data).slots j).free = false →
        j ≠ i := by
    rintro j hFree rfl
    rw [hSelf.1] at hFree
    cases hFree
  exact
    { published := fun d l hSome => by
        by_cases hEq : d = (h.slots i).depthIndex
        · subst hEq
          rw [Function.update_self] at hSome
          cases hSome
          exact hLogged
        · rw [Function.update_of_ne hEq] at hSome
          exact hInv.published d l hSome
      free := fun j hj hFree => by
        by_cases hEq : j = i
        · subst hEq
          exact hSelf.2
        · rw [hOther j hEq] at hFree ⊢
          exact hInv.free j hj hFree
      busy := fun j hj hFree => by
        have hDiff := hNe j hFree
        rw [hOther j hDiff] at hFree ⊢
        have hOld := hInv.busy j hj hFree
        rw [Function.update_of_ne fun hSame =>
          hDiff (hInv.apart j hj i hi hFree hBusy hSame)]
        exact hOld
      apart := fun j hj k hk hFree hFree' hSame => by
        have hDiff := hNe j hFree
        have hDiff' := hNe k hFree'
        rw [hOther j hDiff] at hFree hSame
        rw [hOther k hDiff'] at hFree' hSame
        exact hInv.apart j hj k hk hFree hFree' hSame
      covered := fun d hSome hNone => by
        by_cases hEq : d = (h.slots i).depthIndex
        · subst hEq
          rw [Function.update_self] at hNone
          cases hNone
        · rw [Function.update_of_ne hEq] at hNone
          rcases hInv.covered d hSome hNone with
            ⟨j, hj, hFree, hDepth⟩
          have hDiff : j ≠ i := by
            rintro rfl
            exact hEq hDepth.symm
          refine ⟨j, hj, ?_, ?_⟩
          · rw [hOther j hDiff]
            exact hFree
          · rw [hOther j hDiff]
            exact hDepth }

----------------
-- A Pass Over The Slots
----------------

/- A visit to slot `i` of a state with all that was committed. -/
structure Polled
    (capacity : Nat)
    (log : List (List Entry))
    (poll : Poll)
    (i : Nat)
    (h : CpuCandidateHistory)
    (t : CpuCandidateHistory) : Prop where
  inv : HistoryInv capacity log t
  slotCount : t.slotCount = h.slotCount
  others : ∀ j, j ≠ i → t.slots j = h.slots j
  free : (h.slots i).free = true → (t.slots i).free = true

/- A writer that starts keeps the invariant. -/
theorem HistoryInv.startWriter
    (hInv : HistoryInv capacity log h)
    (i : Nat) :
    HistoryInv capacity log
      (setSlot h i (startWriter (h.slots i))) := by
  rcases hInv.state with ⟨batches, rows, hPrune, hSlots⟩
  exact
    { slots := hInv.slots
      workers := hInv.workers
      capacity := hInv.capacity
      size := hInv.size
      valid := hInv.valid
      state :=
        ⟨batches, rows, hPrune.setSlot i _,
          hSlots.startWriter i⟩ }

/- A logged layer has a place in the log. -/
theorem logged_lt
    {d : Nat}
    {l : List Entry}
    (hLogged : logged log d = some l) :
    d < log.length :=
  (List.getElem?_eq_some_iff.mp hLogged).1

/- Polling a copy publishes its batch when the copy is done. -/
theorem pollCopy_spec
    (poll : Poll)
    (i : Nat)
    (h : CpuCandidateHistory)
    (hInv : HistoryInv capacity log h) :
    Triple (fun t => t = h) (pollCopy poll i)
      (fun any t =>
        Polled capacity log poll i h t ∧
          (AllDone poll → (t.slots i).copyPending = false) ∧
          ((h.slots i).copyPending = false →
            any = false ∧ t = h))
      Never := by
  apply Triple.read
  rintro t rfl
  apply Triple.branch
  · intro hCopied
    rw [Bool.and_eq_true] at hCopied
    apply Triple.write
    apply Triple.value
    rintro u rfl
    have hSelf :
        (setSlot t i (startWriter (t.slots i))).slots i =
          startWriter (t.slots i) :=
      Function.update_self ..
    refine
      ⟨{ inv := hInv.startWriter i
         slotCount := rfl
         others := fun j hNe => Function.update_of_ne hNe ..
         free := fun hFree => ?_ }, fun _ => ?_, ?_⟩
    · rw [hSelf]
      exact hFree
    · rw [hSelf]
      rfl
    · intro hNot
      rw [hCopied.1] at hNot
      cases hNot
  · intro hNot
    apply Triple.value
    rintro u rfl
    refine
      ⟨{ inv := hInv
         slotCount := rfl
         others := fun _ _ => rfl
         free := fun hFree => hFree },
        fun hAll => ?_, fun _ => ⟨rfl, rfl⟩⟩
    rw [hAll.copies i, Bool.and_true] at hNot
    exact Bool.eq_false_iff.mpr hNot

/- Polling a writer frees its slot when the write is done. -/
theorem pollWriter_spec
    (poll : Poll)
    (i : Nat)
    (h : CpuCandidateHistory)
    (hi : i < h.slotCount)
    (hInv : HistoryInv capacity log h) :
    Triple (fun t => t = h) (pollWriter poll i)
      (fun any t =>
        Polled capacity log poll i h t ∧
          (AllDone poll → (h.slots i).copyPending = false →
            (t.slots i).free = true) ∧
          ((h.slots i).free = true → any = false ∧ t = h))
      Never := by
  apply Triple.read
  rintro t rfl
  have hSame : Polled capacity log poll i t t :=
    { inv := hInv
      slotCount := rfl
      others := fun _ _ => rfl
      free := fun hFree => hFree }
  apply Triple.branch
  · intro hWaits
    apply Triple.value
    rintro u rfl
    refine ⟨hSame, fun _ hCopied => ?_, fun _ => ⟨rfl, rfl⟩⟩
    rw [hCopied, Bool.false_or] at hWaits
    exact hWaits
  · intro hNot
    rw [Bool.not_eq_true, Bool.or_eq_false_iff] at hNot
    rcases hInv.state with ⟨batches, rows, hPrune, hSlots⟩
    rcases hSlots.busy i hi hNot.2 with
      ⟨hNew, hLogged, hWriter⟩
    rw [hWriter hNot.1]
    apply Triple.branch
    · intro _
      have hLt : (t.slots i).depthIndex < t.size := by
        rw [hInv.size]
        exact logged_lt hLogged
      rw [if_neg (by omega)]
      apply Triple.write
      apply Triple.value
      rintro u rfl
      have hNext :=
        hSlots.publish hi hNot.2 hNot.1 hLogged
      have hSelf :
          ((publish t i ((t.slots i).host.map entry)).slots
            i).free = true := by
        dsimp only [publish]
        rw [Function.update_self]
      refine
        ⟨{ inv :=
             { slots := hInv.slots
               workers := hInv.workers
               capacity := hInv.capacity
               size := hInv.size
               valid := hInv.valid
               state :=
                 ⟨_, _,
                   hPrune.publish hNew hLt
                     (validParents_of_logged hInv.valid
                       hNext.published),
                   hNext⟩ }
           slotCount := rfl
           others := fun j hNe => Function.update_of_ne hNe ..
           free := fun _ => hSelf }, fun _ _ => hSelf, ?_⟩
      intro hFree
      rw [hNot.2] at hFree
      cases hFree
    · intro hPending
      apply Triple.value
      rintro u rfl
      refine
        ⟨hSame, fun hAll => absurd (hAll.writers i) hPending,
          fun hFree => ?_⟩
      rw [hNot.2] at hFree
      cases hFree

/- A slot is polled for its copy first, then for its writer. -/
theorem pollSlot_spec
    (poll : Poll)
    (i : Nat)
    (h : CpuCandidateHistory)
    (hi : i < h.slotCount)
    (hInv : HistoryInv capacity log h) :
    Triple (fun t => t = h) (pollSlot poll i)
      (fun any t =>
        Polled capacity log poll i h t ∧
          (AllDone poll → (t.slots i).free = true) ∧
          ((h.slots i).free = true → any = false ∧ t = h))
      Never := by
  apply Triple.seq (pollCopy_spec poll i h hInv)
  intro copied
  apply Triple.of_state
  rintro t ⟨hCopy, hDone, hIdle⟩
  apply Triple.seq
    (pollWriter_spec poll i t (hCopy.slotCount.symm ▸ hi)
      hCopy.inv)
  intro written
  apply Triple.value
  rintro u ⟨hWrite, hWritten, hStill⟩
  refine
    ⟨{ inv := hWrite.inv
       slotCount := hWrite.slotCount.trans hCopy.slotCount
       others := fun j hNe =>
         (hWrite.others j hNe).trans (hCopy.others j hNe)
       free := fun hFree => hWrite.free (hCopy.free hFree) },
      fun hAll => hWritten hAll (hDone hAll), fun hFree => ?_⟩
  rcases hInv.state with ⟨batches, rows, -, hSlots⟩
  rcases hIdle (hSlots.free i hi hFree) with ⟨rfl, rfl⟩
  rcases hStill hFree with ⟨rfl, rfl⟩
  exact ⟨rfl, rfl⟩

/- No slot has work. -/
def AllFree (h : CpuCandidateHistory) : Prop :=
  ∀ i < h.slotCount, (h.slots i).free = true

/- Polling every slot frees them all when everything is done. -/
theorem pollSlots_spec
    (poll : Poll) :
    Triple (HistoryInv capacity log) (pollSlots poll)
      (fun _ t =>
        HistoryInv capacity log t ∧
          (AllDone poll → AllFree t))
      Never := by
  apply Triple.read
  intro h hInv
  -- Slots the walk has left behind are free.
  have hWalk :=
    Triple.anyOf_walk
      (J := fun rest t =>
        HistoryInv capacity log t ∧
          t.slotCount = h.slotCount ∧
          (AllDone poll →
            ∀ i < t.slotCount, i ∉ rest →
              (t.slots i).free = true))
      (E := Never)
      (fun i rest hSuffix => by
        apply Triple.of_state
        rintro t ⟨hKept, hCount, hBehind⟩
        have hMem : i ∈ List.range h.slotCount :=
          hSuffix.subset List.mem_cons_self
        have hi : i < t.slotCount := by
          rw [hCount]
          exact List.mem_range.mp hMem
        apply (pollSlot_spec poll i t hi hKept).post
        rintro any u ⟨hPolled, hDone, -⟩
        refine
          ⟨hPolled.inv, hPolled.slotCount.trans hCount,
            fun hAll j hj hNot => ?_⟩
        by_cases hEq : j = i
        · subst hEq
          exact hDone hAll
        · rw [hPolled.others j hEq]
          rw [hPolled.slotCount] at hj
          exact
            hBehind hAll j hj fun hIn =>
              (List.mem_cons.mp hIn).elim hEq hNot)
  apply hWalk.conseq
  · rintro t rfl
    refine ⟨hInv, rfl, fun _ i hi hNot => ?_⟩
    exact absurd (List.mem_range.mpr hi) hNot
  · rintro _ t ⟨hKept, -, hBehind⟩
    exact
      ⟨hKept, fun hAll i hi =>
        hBehind hAll i hi List.not_mem_nil⟩
  · exact fun _ _ hNever => hNever

/- With every slot free a poll finds nothing. -/
theorem pollSlots_idle
    (poll : Poll)
    (h : CpuCandidateHistory)
    (hInv : HistoryInv capacity log h)
    (hFree : AllFree h) :
    Triple (fun t => t = h) (pollSlots poll)
      (fun any t => any = false ∧ t = h) Never := by
  apply Triple.read
  rintro t rfl
  apply Triple.anyOf_idle
  intro i hMem
  have hi := List.mem_range.mp hMem
  apply (pollSlot_spec poll i t hi hInv).post
  rintro any u ⟨-, -, hIdle⟩
  exact hIdle (hFree i hi)

----------------
-- Pumping
----------------

/- The invariant survives what the jobs did. -/
theorem HistoryInv.pumped
    {t : CpuCandidateHistory}
    (hInv : HistoryInv capacity log h)
    (hSlots : SlotsInv log batches h)
    (hPumped : Pumped batches h t) :
    HistoryInv capacity log t := by
  rcases hPumped.stable with
    ⟨hWorkers, hCapacity, hCount, hSame, hSize⟩
  rcases hPumped.kept with ⟨rows, hPrune⟩
  refine
    { slots := hCount.symm ▸ hInv.slots
      workers := hWorkers.symm ▸ hInv.workers
      capacity := hCapacity.trans hInv.capacity
      size := hSize.trans hInv.size
      valid := hInv.valid
      state := ⟨batches, rows, hPrune, ?_⟩ }
  exact
    { published := hSlots.published
      free := by
        rw [hCount, hSame]
        exact hSlots.free
      busy := by
        rw [hCount, hSame]
        exact hSlots.busy
      apart := by
        rw [hCount, hSame]
        exact hSlots.apart
      covered := by
        rw [hCount, hSame]
        exact hSlots.covered }

/- The jobs are pumped between two polls of the slots. -/
theorem pumpJobs_keeps
    (waiting : Bool)
    (poll : Poll) :
    Triple
      (fun h =>
        HistoryInv capacity log h ∧
          (waiting = true → AllFree h))
      (pumpPruneJobs waiting poll)
      (fun _ t =>
        HistoryInv capacity log t ∧
          (waiting = true → AllFree t ∧ Settled t))
      Never := by
  apply Triple.of_state
  rintro h ⟨hInv, hFree⟩
  rcases hInv.state with ⟨batches, rows, hPrune, hSlots⟩
  apply
    (pumpPruneJobs_spec waiting poll h hPrune hInv.workers).post
  rintro _ t ⟨hPumped, hSettled⟩
  refine
    ⟨hInv.pumped hSlots hPumped, fun hWaiting =>
      ⟨?_, hSettled hWaiting⟩⟩
  have hOld := hFree hWaiting
  rcases hPumped.stable with ⟨-, -, hCount, hSame, -⟩
  unfold AllFree
  rw [hCount, hSame]
  exact hOld

/- Is there a slot to wait for? -/
def occupied (h : CpuCandidateHistory) : Nat :=
  if ∀ i < h.slotCount, (h.slots i).free = true then 0 else 1

theorem occupied_of_free
    (hFree : AllFree h) :
    occupied h = 0 :=
  if_pos hFree

theorem occupied_of_not_free
    (hNot : ¬ AllFree h) :
    occupied h = 1 :=
  if_neg hNot

/- Waiting for the slots takes one pass and one idle one. -/
theorem waitSlots_spec :
    Triple (HistoryInv capacity log)
      (repeatUntil Stop.outOfFuel 2 do
        let progressed ← pollSlots waitAll
        pure !progressed)
      (fun _ t => HistoryInv capacity log t ∧ AllFree t)
      Never := by
  have hBody :
      ∀ h, HistoryInv capacity log h →
        Triple (fun t => t = h)
          (do
            let progressed ← pollSlots waitAll
            pure !progressed)
          (fun done t =>
            if done then HistoryInv capacity log t ∧ AllFree t
            else
              HistoryInv capacity log t ∧
                occupied t < occupied h)
          Never := by
    intro h hInv
    by_cases hFree : AllFree h
    · apply Triple.seq (pollSlots_idle waitAll h hInv hFree)
      intro progressed
      apply Triple.value
      rintro t ⟨rfl, rfl⟩
      exact ⟨hInv, hFree⟩
    · have hStart :
          Triple (fun t => t = h) (pollSlots waitAll)
            (fun _ t =>
              HistoryInv capacity log t ∧ AllFree t)
            Never := by
        apply (pollSlots_spec waitAll).conseq
        · rintro t rfl
          exact hInv
        · exact fun _ t hEnd =>
            ⟨hEnd.1, hEnd.2 allDone_waitAll⟩
        · exact fun _ _ hNever => hNever
      apply Triple.seq hStart
      intro progressed
      apply Triple.value
      rintro t ⟨hNext, hAll⟩
      cases progressed with
      | false => exact ⟨hNext, hAll⟩
      | true =>
          refine ⟨hNext, ?_⟩
          rw [occupied_of_not_free hFree, occupied_of_free hAll]
          exact Nat.zero_lt_one
  apply (Triple.repeatUntil_of_measure occupied 2 hBody).pre
  intro h hInv
  refine ⟨hInv, ?_⟩
  rw [occupied]
  split
  · exact Nat.zero_lt_two
  · exact Nat.one_lt_two

/-
  Pumping keeps the invariant, and waiting leaves nothing to
  do.
-/
theorem pumpCompleted_spec
    (waiting : Bool)
    (poll : Poll) :
    Triple (HistoryInv capacity log)
      (pumpCompleted waiting poll)
      (fun _ t =>
        HistoryInv capacity log t ∧
          (waiting = true → AllFree t ∧ Settled t))
      Never := by
  cases waiting with
  | true =>
      apply Triple.seq waitSlots_spec
      intro _
      apply (pumpJobs_keeps true poll).pre
      exact fun t hEnd => ⟨hEnd.1, fun _ => hEnd.2⟩
  | false =>
      apply Triple.seq (R := fun _ => HistoryInv capacity log)
      · exact (pollSlots_spec poll).post fun _ t hEnd => hEnd.1
      · intro _
        apply (pumpJobs_keeps false poll).pre
        exact fun t hInv => ⟨hInv, fun hWait => nomatch hWait⟩

----------------
-- A Commit
----------------

/- A slot that was free is taken. -/
def Acquired
    (capacity : Nat)
    (log : List (List Entry))
    (i : Nat)
    (t : CpuCandidateHistory) : Prop :=
  ∃ h,
    HistoryInv capacity log h ∧
    i < h.slotCount ∧
    (h.slots i).free = true ∧
    t = takeSlot h i

/- The search for a slot returns a free one. -/
theorem acquireSlot_spec
    (poll : Poll) :
    Triple (HistoryInv capacity log) (acquireSlot poll)
      (Acquired capacity log) Never := by
  apply acquire_spec
  · exact
      (pumpCompleted_spec false poll).post fun _ _ hEnd => hEnd.1
  · apply (pumpCompleted_spec true poll).post
    rintro _ t ⟨hInv, hDone⟩
    have hFirst : (t.slots 0).free = true :=
      (hDone rfl).1 0 hInv.slots
    exact
      ⟨hInv, fun hNone =>
        absurd hNone (firstFree_ne_none hInv.slots hFirst)⟩
  · intro h i hInv hFound
    rcases firstFree_eq_some hFound with ⟨hInside, hFree⟩
    exact ⟨h, hInv, hInside, hFree, rfl⟩

/- A new depth starts with no batch and no dirty pair. -/
theorem PruneInv.pushDepth
    (hInv : PruneInv batches rows h)
    (count : Nat) :
    PruneInv batches rows (pushDepth h count) := by
  have hNone : batches h.size = none :=
    hInv.bounded h.size (Nat.le_refl _)
  have hView : ∀ d, view rows d ≠ none → d ≠ h.size := by
    rintro d hSome rfl
    exact (view_ne_none_iff hInv.tracks _).mp hSome hNone
  exact
    { tracks := hInv.tracks
      bounded := fun d hd => by
        change h.size + 1 ≤ d at hd
        exact hInv.bounded d (by omega)
      shown := fun d l hShown hNot => by
        have hNe := hView d (by
          rw [hShown]
          exact Option.some_ne_none l)
        dsimp only [Async.pushDepth]
        rw [Function.update_of_ne hNe, Function.update_of_ne hNe]
        exact hInv.shown d l hShown hNot
      ready := fun d hReady => by
        dsimp only [Async.pushDepth] at hReady
        by_cases hEq : d = h.size
        · subst hEq
          rw [Function.update_self] at hReady
          cases hReady
        · rw [Function.update_of_ne hEq] at hReady
          exact hInv.ready d hReady
      working := fun job hJob => by
        rcases hInv.working job hJob with
          ⟨previous, current, hPrevious, hCurrent, hWork,
            hDirty⟩
        have hNe := hView job.depthIndex (by
          rw [hPrevious]
          exact Option.some_ne_none previous)
        refine
          ⟨previous, current, hPrevious, hCurrent, hWork, ?_⟩
        dsimp only [Async.pushDepth]
        rw [Function.update_of_ne hNe]
        exact hDirty
      apart := hInv.apart
      clean := fun d hUpper hClear => by
        dsimp only [Async.pushDepth] at hClear
        by_cases hEq : d = h.size
        · subst hEq
          exact absurd (hInv.bounded _ (Nat.le_succ _)) hUpper
        · rw [Function.update_of_ne hEq] at hClear
          exact hInv.clean d hUpper hClear
      owned := hInv.owned }

/- An older layer is still logged. -/
theorem logged_concat_of_some
    {d : Nat}
    {l : List Entry}
    (new : List Entry)
    (hLogged : logged log d = some l) :
    logged (log ++ [new]) d = some l := by
  rw [logged, List.getElem?_append_left (logged_lt hLogged)]
  exact hLogged

/- The new layer is the last of the log. -/
theorem logged_concat_self
    (log : List (List Entry))
    (new : List Entry) :
    logged (log ++ [new]) log.length = some new := by
  rw [logged, List.getElem?_append_right (Nat.le_refl _),
    Nat.sub_self]
  rfl

/- Every other layer was logged before. -/
theorem logged_concat_other
    {d : Nat}
    (new : List Entry)
    (hNe : d ≠ log.length)
    (hLogged : logged (log ++ [new]) d ≠ none) :
    logged log d ≠ none := by
  rw [logged, List.getElem?_append] at hLogged
  split at hLogged
  · exact hLogged
  · exact absurd (List.getElem?_eq_none (by
      rw [List.length_singleton]
      omega)) hLogged

/- A committed batch takes a free slot and is logged. -/
theorem SlotsInv.commit
    {i : Nat}
    (hInv : SlotsInv log batches h)
    (hSize : h.size = log.length)
    (hNew : batches h.size = none)
    (hFree : (h.slots i).free = true)
    (hi : i < h.slotCount)
    (batch : List CandidateMeta) :
    SlotsInv (log ++ [batch.map entry]) batches
      (pushDepth (fillSlot (takeSlot h i) i h.size batch)
        batch.length) := by
  have hSelf :
      ((pushDepth (fillSlot (takeSlot h i) i h.size batch)
            batch.length).slots i).free = false ∧
        ((pushDepth (fillSlot (takeSlot h i) i h.size batch)
            batch.length).slots i).copyPending = true ∧
        ((pushDepth (fillSlot (takeSlot h i) i h.size batch)
            batch.length).slots i).depthIndex = h.size ∧
        ((pushDepth (fillSlot (takeSlot h i) i h.size batch)
            batch.length).slots i).host = batch := by
    dsimp only [pushDepth, fillSlot, setSlot]
    rw [Function.update_self]
    exact ⟨rfl, rfl, rfl, rfl⟩
  have hOther :
      ∀ j, j ≠ i →
        (pushDepth (fillSlot (takeSlot h i) i h.size batch)
            batch.length).slots j =
          h.slots j := by
    intro j hNe
    dsimp only [pushDepth, fillSlot, takeSlot, setSlot]
    rw [Function.update_of_ne hNe, Function.update_of_ne hNe]
  have hBelow :
      ∀ j < h.slotCount, (h.slots j).free = false →
        (h.slots j).depthIndex ≠ h.size := by
    intro j hj hBusy
    have hLt := logged_lt (hInv.busy j hj hBusy).2.1
    omega
  exact
    { published := fun d l hSome =>
        logged_concat_of_some _ (hInv.published d l hSome)
      free := fun j hj hFree' => by
        have hNe : j ≠ i := by
          rintro rfl
          rw [hSelf.1] at hFree'
          cases hFree'
        rw [hOther j hNe] at hFree' ⊢
        exact hInv.free j hj hFree'
      busy := fun j hj hBusy => by
        by_cases hEq : j = i
        · subst hEq
          rw [hSelf.2.2.1, hSelf.2.2.2, hSelf.2.1, hSize]
          refine
            ⟨hSize ▸ hNew, logged_concat_self log _,
              fun hNot => nomatch hNot⟩
        · rw [hOther j hEq] at hBusy ⊢
          have hOld := hInv.busy j hj hBusy
          exact
            ⟨hOld.1, logged_concat_of_some _ hOld.2.1, hOld.2.2⟩
      apart := fun j hj k hk hBusy hBusy' hSame => by
        by_cases hEq : j = i
        · by_cases hEq' : k = i
          · exact hEq.trans hEq'.symm
          · subst hEq
            rw [hOther k hEq'] at hBusy' hSame
            rw [hSelf.2.2.1] at hSame
            exact absurd hSame.symm (hBelow k hk hBusy')
        · rw [hOther j hEq] at hBusy hSame
          by_cases hEq' : k = i
          · subst hEq'
            rw [hSelf.2.2.1] at hSame
            exact absurd hSame (hBelow j hj hBusy)
          · rw [hOther k hEq'] at hBusy' hSame
            exact hInv.apart j hj k hk hBusy hBusy' hSame
      covered := fun d hSome hNone => by
        by_cases hEq : d = h.size
        · exact
            ⟨i, hi, hSelf.1, hSelf.2.2.1.trans hEq.symm⟩
        · rcases hInv.covered d
              (logged_concat_other _ (hSize ▸ hEq) hSome) hNone
            with ⟨j, hj, hBusy, hDepth⟩
          have hNe : j ≠ i := by
            rintro rfl
            rw [hFree] at hBusy
            cases hBusy
          refine ⟨j, hj, ?_, ?_⟩
          · rw [hOther j hNe]
            exact hBusy
          · rw [hOther j hNe]
            exact hDepth }

/- A commit logs its batch and keeps the invariant. -/
theorem commit_spec
    (poll : Poll)
    (batch : List CandidateMeta)
    (hFits : batch.length ≤ capacity)
    (hValid :
      ValidParents (logged (log ++ [batch.map entry]))) :
    Triple (HistoryInv capacity log)
      (runEvent (.commit poll batch))
      (fun _ => HistoryInv capacity (log ++ [batch.map entry]))
      Never := by
  apply Triple.seq (acquireSlot_spec poll)
  intro i
  apply Triple.read
  rintro t ⟨h, hInv, hi, hFree, rfl⟩
  apply Triple.read
  rintro t rfl
  have hCapacity : ¬ batch.length > (takeSlot h i).slotCapacity := by
    change ¬ batch.length > h.slotCapacity
    rw [hInv.capacity]
    omega
  rw [if_neg hCapacity]
  apply Triple.write
  rw [if_neg (not_not_intro rfl)]
  rintro t rfl
  rcases hInv.state with ⟨batches, rows, hPrune, hSlots⟩
  have hPushed :
      PruneInv batches rows
        (pushDepth (fillSlot (takeSlot h i) i h.size batch)
          batch.length) :=
    ((hPrune.setSlot i _).setSlot i _).pushDepth _
  exact
    { slots := hInv.slots
      workers := hInv.workers
      capacity := hInv.capacity
      size := by
        rw [List.length_append, ← hInv.size]
        rfl
      valid := hValid
      state :=
        ⟨batches, rows, hPushed,
          hSlots.commit hInv.size
            (hPrune.bounded _ (Nat.le_refl _)) hFree hi batch⟩ }

----------------
-- The Sequential Result
----------------

/- Pruning one pair of the list is pruning its rows. -/
theorem prunePairAt_spec
    {layers : List (List Entry)}
    (hTracks : Tracks batches rows)
    (hShown : ∀ d, layers[d]? = view rows d)
    (k : Nat)
    (hClean : ∀ d, k + 1 ≤ d → Clean rows d) :
    ∃ rows',
      Tracks batches rows' ∧
      (∀ d, (prunePairAt layers k)[d]? = view rows' d) ∧
      ∀ d, k ≤ d → Clean rows' d := by
  by_cases hPair : ∃ below own,
      rows k = some below ∧ rows (k + 1) = some own
  · rcases hPair with ⟨below, own, hBelow, hOwn⟩
    have hPrevious :
        view rows k = some (layer (belowOf rows k) below) := by
      rw [view, hBelow, Option.map_some]
    have hCurrent :
        view rows (k + 1) =
          some (layer (belowOf rows (k + 1)) own) := by
      rw [view, hOwn, Option.map_some]
    refine
      ⟨prunedRows rows k own below, hTracks.prune hBelow hOwn,
        fun d => ?_, fun d hd => ?_⟩
    · have hAt := hShown k
      have hAbove := hShown (k + 1)
      rw [hPrevious] at hAt
      rw [hCurrent] at hAbove
      have hLt := (List.getElem?_eq_some_iff.mp hAt).1
      have hLtAbove := (List.getElem?_eq_some_iff.mp hAbove).1
      rw [hTracks.view_prune hBelow hOwn hPrevious hCurrent,
        prunePairAt, hAt, hAbove]
      dsimp only
      by_cases hUpper : d = k + 1
      · subst hUpper
        rw [Function.update_self,
          List.getElem?_set_self (by
            rw [List.length_set]
            exact hLtAbove)]
      · rw [Function.update_of_ne hUpper,
          List.getElem?_set_ne (Ne.symm hUpper)]
        by_cases hLower : d = k
        · subst hLower
          rw [Function.update_self, List.getElem?_set_self hLt]
        · rw [Function.update_of_ne hLower,
            List.getElem?_set_ne (Ne.symm hLower)]
          exact hShown d
    · by_cases hEq : d = k
      · subst hEq
        exact clean_prunedRows hOwn
      · exact
          (hClean d (by omega)).prune_other hBelow (by omega) hEq
  · have hVacuous : Clean rows k := by
      intro below own hBelow hOwn
      exact absurd ⟨below, own, hBelow, hOwn⟩ hPair
    refine ⟨rows, hTracks, fun d => ?_, fun d hd => ?_⟩
    · have hSame : prunePairAt layers k = layers := by
        rw [prunePairAt]
        split
        · next previous current hAt hAbove =>
            rw [hShown] at hAt hAbove
            rcases Option.map_eq_some_iff.mp hAt with
              ⟨below, hBelow, -⟩
            rcases Option.map_eq_some_iff.mp hAbove with
              ⟨own, hOwn, -⟩
            exact absurd ⟨below, own, hBelow, hOwn⟩ hPair
        · rfl
      rw [hSame]
      exact hShown d
    · by_cases hEq : d = k
      · exact hEq ▸ hVacuous
      · exact hClean d (by omega)

/- One pass downwards cleans every pair from the top. -/
theorem pruneDown_spec
    (k : Nat) :
    ∀ (rows : Nat → Option (Rows Entry))
      (layers : List (List Entry)),
      Tracks batches rows →
      (∀ d, layers[d]? = view rows d) →
      (∀ d, k ≤ d → Clean rows d) →
      ∃ rows',
        Tracks batches rows' ∧
        (∀ d,
          ((List.range k).reverse.foldl prunePairAt layers)[d]? =
            view rows' d) ∧
        ∀ d, Clean rows' d := by
  induction k with
  | zero =>
      intro rows layers hTracks hShown hClean
      exact
        ⟨rows, hTracks, hShown, fun d => hClean d d.zero_le⟩
  | succ k ih =>
      intro rows layers hTracks hShown hClean
      rcases prunePairAt_spec hTracks hShown k hClean with
        ⟨rows', hTracks', hShown', hClean'⟩
      rw [List.range_succ, List.reverse_append,
        List.reverse_singleton, List.singleton_append,
        List.foldl_cons]
      exact ih rows' _ hTracks' hShown' hClean'

/- The sequential pruning ends with every pair clean. -/
theorem pruneSequentially_spec
    (hValid : ValidParents (logged log)) :
    ∃ rows,
      Tracks (logged log) rows ∧
      (∀ d, (pruneSequentially log)[d]? = view rows d) ∧
      ∀ d, Clean rows d := by
  apply pruneDown_spec (log.length - 1)
    (wholeRows (logged log)) log (tracks_wholeRows hValid)
  · intro d
    rw [view_wholeRows hValid]
    rfl
  · intro d hd below own _ hOwn
    rcases wholeRows_eq_some hOwn with ⟨batch, hBatch, -⟩
    have hLt := logged_lt hBatch
    omega

----------------
-- Convergence
----------------

/- With all slots free and no job left, all is published. -/
theorem HistoryInv.converged
    (hInv : HistoryInv capacity log h)
    (hFree : AllFree h)
    (hSettled : Settled h) :
    (∀ d < h.size, h.ramReady d = true) ∧
      (∀ d, d + 1 < h.size → h.pruneDirty d = false) ∧
      (List.range h.size).map h.ramDepths =
        pruneSequentially log := by
  rcases hInv.state with ⟨batches, rows, hPrune, hSlots⟩
  rcases hSettled with ⟨hJobs, hNone⟩
  have hUnused : ∀ d, ¬ Uses h d := by
    rintro d ⟨job, hJob, -⟩
    rw [hJobs] at hJob
    cases hJob
  have hAll : batches = logged log := by
    funext d
    cases hBatch : batches d with
    | some l => exact (hSlots.published d l hBatch).symm
    | none =>
        cases hLogged : logged log d with
        | none => rfl
        | some l =>
            rcases hSlots.covered d
                (by rw [hLogged]; exact Option.some_ne_none l)
                hBatch with
              ⟨i, hi, hBusy, -⟩
            rw [hFree i hi] at hBusy
            cases hBusy
  have hView :
      ∀ d < h.size, ∃ l,
        view rows d = some l ∧
        h.ramReady d = true ∧
        h.ramDepths d = l := by
    intro d hd
    have hSome : view rows d ≠ none := by
      rw [view_ne_none_iff hPrune.tracks, hAll]
      rw [hInv.size] at hd
      exact fun hNot =>
        absurd (List.getElem?_eq_none_iff.mp hNot) (by omega)
    rcases Option.ne_none_iff_exists'.mp hSome with ⟨l, hl⟩
    exact ⟨l, hl, hPrune.shown d l hl (hUnused d)⟩
  have hReady : ∀ d < h.size, h.ramReady d = true := by
    intro d hd
    rcases hView d hd with ⟨l, -, hReady, -⟩
    exact hReady
  have hDirty :
      ∀ d, d + 1 < h.size → h.pruneDirty d = false := by
    intro d hd
    have hTest :=
      List.find?_eq_none.mp hNone d (by
        rw [List.mem_reverse, List.mem_range]
        omega)
    have hIdle : anyPruneJobUsesPair h d = false := by
      rw [anyPruneJobUsesPair, hJobs]
      rfl
    rw [hReady d (by omega), hReady (d + 1) hd, hIdle,
      Bool.and_true, Bool.and_true, Bool.not_false,
      Bool.and_true] at hTest
    exact Bool.eq_false_iff.mpr hTest
  have hClean : ∀ d, Clean rows d := by
    intro d
    by_cases hd : d + 1 < h.size
    · refine (hPrune.clean d ?_ (hDirty d hd)).2
      rw [hAll]
      rw [hInv.size] at hd
      exact fun hNot =>
        absurd (List.getElem?_eq_none_iff.mp hNot) (by omega)
    · intro below own _ hOwn
      have hGone := hPrune.bounded (d + 1) (by omega)
      rw [(hPrune.tracks.present (d + 1)).mpr hGone] at hOwn
      cases hOwn
  rcases pruneSequentially_spec hInv.valid with
    ⟨rows', hTracks', hShown', hClean'⟩
  have hSame : rows = rows' :=
    (hAll ▸ hPrune.tracks).eq_of_clean hTracks' hClean hClean'
      fun d (hd : h.size ≤ d) => hAll ▸ hPrune.bounded d hd
  refine ⟨hReady, hDirty, List.ext_getElem? fun d => ?_⟩
  rw [hShown' d, ← hSame, List.getElem?_map]
  by_cases hd : d < h.size
  · rcases hView d hd with ⟨l, hl, -, hDepth⟩
    rw [List.getElem?_range hd, Option.map_some, hl, hDepth]
  · have hGone := hPrune.bounded d (by omega)
    rw [List.getElem?_eq_none (by
      rw [List.length_range]
      omega), Option.map_none, view,
      (hPrune.tracks.present d).mpr hGone, Option.map_none]

/- A parent is an index of the batch one depth below. -/
def ParentsInBatches
    (batches : List (List CandidateMeta)) : Prop :=
  ∀ d previous current,
    batches[d]? = some previous →
    batches[d + 1]? = some current →
    ∀ candidate ∈ current,
      candidate.parentIdx.toNat < previous.length

/- The layers of a run, as entries. -/
def layersCommitted
    (events : List HistoryEvent) : List (List Entry) :=
  (committedBatches events).map (List.map entry)

/- The layers of valid batches have valid parents. -/
theorem ParentsInBatches.validParents
    {batches : List (List CandidateMeta)}
    (hParents : ParentsInBatches batches) :
    ValidParents (logged (batches.map (List.map entry))) := by
  intro d previous current hPrevious hCurrent e he
  rw [logged, List.getElem?_map] at hPrevious hCurrent
  rcases Option.map_eq_some_iff.mp hPrevious with
    ⟨lower, hLower, rfl⟩
  rcases Option.map_eq_some_iff.mp hCurrent with
    ⟨upper, hUpper, rfl⟩
  rcases List.mem_map.mp he with ⟨candidate, hCandidate, rfl⟩
  rw [List.length_map]
  exact hParents d lower upper hLower hUpper candidate hCandidate

/- A prefix of the log has valid parents too. -/
theorem validParents_of_append
    {done rest : List (List Entry)}
    (hValid : ValidParents (logged (done ++ rest))) :
    ValidParents (logged done) :=
  validParents_of_logged hValid fun d l hSome => by
    rw [logged, List.getElem?_append_left (logged_lt hSome)]
    exact hSome

/- At the end every slot is free and no pair is dirty. -/
theorem finishAll_spec :
    Triple (HistoryInv capacity log) finishAll
      (fun _ t =>
        HistoryInv capacity log t ∧ AllFree t ∧ Settled t)
      Never := by
  apply Triple.seq (pumpCompleted_spec true waitAll)
  intro _
  apply (pumpJobs_keeps true waitAll).conseq
  · exact fun t hEnd => ⟨hEnd.1, fun _ => (hEnd.2 rfl).1⟩
  · exact fun _ t hEnd => ⟨hEnd.1, hEnd.2 rfl⟩
  · exact fun _ _ hNever => hNever

/- With `rest` to come, the first part of `log` is there. -/
def Reached
    (capacity : Nat)
    (log : List (List Entry))
    (rest : List HistoryEvent)
    (h : CpuCandidateHistory) : Prop :=
  ∃ done,
    done ++ layersCommitted rest = log ∧
    HistoryInv capacity done h

/- One event keeps the invariant of the log so far. -/
theorem runEvent_spec
    (event : HistoryEvent)
    (rest : List HistoryEvent)
    (hFits : ∀ layer ∈ log, layer.length ≤ capacity)
    (hValid : ValidParents (logged log)) :
    Triple (Reached capacity log (event :: rest))
      (runEvent event)
      (fun _ => Reached capacity log rest) Never := by
  apply Triple.of_state
  rintro h ⟨done, hSplit, hInv⟩
  cases event with
  | pump poll =>
      apply (pumpCompleted_spec false poll).conseq
      · rintro t rfl
        exact hInv
      · exact fun _ t hEnd => ⟨done, hSplit, hEnd.1⟩
      · exact fun _ _ hNever => hNever
  | commit poll batch =>
      have hNext :
          done ++ [batch.map entry] ++ layersCommitted rest =
            log := by
        rw [List.append_assoc]
        exact hSplit
      have hLength := hFits (batch.map entry) (by
        rw [← hNext]
        simp)
      rw [List.length_map] at hLength
      rw [← hNext] at hValid
      apply
        (commit_spec poll batch hLength
          (validParents_of_append hValid)).conseq
      · rintro t rfl
        exact hInv
      · exact fun _ t hEnd => ⟨_, hNext, hEnd⟩
      · exact fun _ _ hNever => hNever
  | finish =>
      apply finishAll_spec.conseq
      · rintro t rfl
        exact hInv
      · exact fun _ t hEnd => ⟨done, hSplit, hEnd.1⟩
      · exact fun _ _ hNever => hNever

/- A run of events keeps it, by induction on the events. -/
theorem runEvents_spec
    (events : List HistoryEvent)
    (hFits :
      ∀ layer ∈ layersCommitted events, layer.length ≤ capacity)
    (hValid : ValidParents (logged (layersCommitted events))) :
    Triple (HistoryInv capacity []) (runEvents events)
      (fun _ => HistoryInv capacity (layersCommitted events))
      Never := by
  have hWalk :
      Triple (Reached capacity (layersCommitted events) events)
        (runEvents events)
        (fun _ => Reached capacity (layersCommitted events) [])
        Never :=
    Triple.forEach fun event rest _ =>
      runEvent_spec event rest hFits hValid
  apply hWalk.conseq
  · exact fun h hInv => ⟨[], rfl, hInv⟩
  · rintro _ h ⟨done, hSplit, hInv⟩
    have hDone : done = layersCommitted events := by
      rw [← hSplit]
      exact (List.append_nil done).symm
    exact hDone ▸ hInv
  · exact fun _ _ hNever => hNever

/- A new history has an empty log. -/
theorem initializeHistory_inv
    {capacity : UInt32}
    {slotCount workerCount : Nat}
    (hNew :
      initializeHistory capacity slotCount workerCount = .ok h) :
    HistoryInv capacity.toNat [] h := by
  rw [initializeHistory] at hNew
  split at hNew
  · cases hNew
  · next hNonzero =>
      cases hNew
      rw [not_or, not_or] at hNonzero
      refine
        { slots := Nat.pos_of_ne_zero hNonzero.2.1
          workers := Nat.pos_of_ne_zero hNonzero.2.2
          capacity := rfl
          size := rfl
          valid := fun _ _ _ hPrevious => nomatch hPrevious
          state :=
            ⟨fun _ => none, fun _ => none, ?_, ?_⟩ }
      · exact
          { tracks := tracks_empty
            bounded := fun _ _ => rfl
            shown := fun _ _ hShown => nomatch hShown
            ready := fun _ hReady => nomatch hReady
            working := fun _ hJob => nomatch hJob
            apart := List.Pairwise.nil
            clean := fun _ hUpper => absurd rfl hUpper
            owned := fun _ hOwners => nomatch hOwners }
      · exact
          { published := fun _ _ hSome => nomatch hSome
            free := fun _ _ _ => rfl
            busy := fun _ _ hBusy => nomatch hBusy
            apart := fun _ _ _ _ hBusy => nomatch hBusy
            covered := fun _ hSome => absurd rfl hSome }

/-
  Whatever has finished when the host looks, the history ends
  with every layer ready and pruned as from the top down, and
  no two jobs that ran at one time shared a layer.
-/
theorem async_converges
    (capacity : UInt32)
    (slotCount workerCount : Nat)
    (start : CpuCandidateHistory)
    (events : List HistoryEvent)
    (hNew :
      initializeHistory capacity slotCount workerCount =
        .ok start)
    (hFits :
      ∀ batch ∈ committedBatches events,
        batch.length ≤ capacity.toNat)
    (hParents : ParentsInBatches (committedBatches events)) :
    ∃ h,
      (do
          runEvents events
          finishAll : HistoryM PUnit) start =
        .ok ⟨⟩ h ∧
      h.size = (committedBatches events).length ∧
      (∀ d < h.size, h.ramReady d = true) ∧
      h.pruneJobs = [] ∧
      (∀ d, d + 1 < h.size → h.pruneDirty d = false) ∧
      (List.range h.size).map h.ramDepths =
        pruneSequentially
          ((committedBatches events).map (List.map entry)) ∧
      ∀ owners ∈ h.owners, owners.Pairwise Apart := by
  have hFits' :
      ∀ layer ∈ layersCommitted events,
        layer.length ≤ capacity.toNat := by
    intro layer hLayer
    rcases List.mem_map.mp hLayer with ⟨batch, hBatch, rfl⟩
    rw [List.length_map]
    exact hFits batch hBatch
  have hRun :=
    Triple.seq
      (runEvents_spec events hFits' hParents.validParents)
      (fun _ => finishAll_spec) start
      (initializeHistory_inv hNew)
  cases hResult :
      (do
          runEvents events
          finishAll : HistoryM PUnit) start with
  | error stop h =>
      rw [hResult] at hRun
      exact hRun.elim
  | ok value h =>
      rw [hResult] at hRun
      rcases hRun with ⟨hInv, hFree, hSettled⟩
      rcases hInv.converged hFree hSettled with
        ⟨hReady, hDirty, hLayers⟩
      rcases hInv.state with ⟨batches, rows, hPrune, -⟩
      refine
        ⟨h, rfl, ?_, hReady, hSettled.1, hDirty, hLayers,
          hPrune.owned⟩
      rw [hInv.size, layersCommitted, List.length_map]

/- The lower layer is published after the upper one. -/
def lateEvents : List HistoryEvent :=
  [.commit waitAll
      [lateCandidate 0 7, lateCandidate 0 8, lateCandidate 0 9],
    .commit
      { copyDone := fun _ => false
        writerDone := fun _ => false
        jobDone := fun _ => false }
      [lateCandidate 2 5, lateCandidate 0 6],
    .pump
      { copyDone := fun i => decide (i = 1)
        writerDone := fun i => decide (i = 1)
        jobDone := fun _ => false }]

theorem async_converges_late :
    ∃ start h,
      initializeHistory 4 2 1 = .ok start ∧
      (do
          runEvents lateEvents
          finishAll : HistoryM PUnit) start =
        .ok ⟨⟩ h ∧
      (List.range h.size).map h.ramDepths =
        [[⟨0, 7, 0⟩, ⟨0, 9, 0⟩], [⟨1, 5, 0⟩, ⟨0, 6, 0⟩]] := by
  have hFits :
      ∀ batch ∈ committedBatches lateEvents,
        batch.length ≤ (4 : UInt32).toNat := by
    decide
  have hParents :
      ParentsInBatches (committedBatches lateEvents) := by
    intro d previous current hPrevious hCurrent
    match d with
    | 0 =>
        cases hPrevious
        cases hCurrent
        decide
    | d + 1 => cases hCurrent
  rcases async_converges 4 2 1 _ lateEvents rfl hFits hParents
    with ⟨h, hRun, -, -, -, -, hLayers, -⟩
  exact ⟨_, h, rfl, hRun, hLayers.trans (by decide)⟩

end Async

end History

end BeamSearch
