import BeamSearch.History.AsyncConverges
import BeamSearch.History.CandidateBooks

/-
  The byte counters of the native history that prunes.

  A finished job takes the bytes it saved from the stored ones
  and adds them to the pruned ones, but leaves the bytes of the
  memory tier as they are. So the tiers add up just when nothing
  was pruned, and that is when every entry has a child.

  Main declarations:
    * `Weighed`
    * `EveryEntryParent`
    * `runEvents_weighed`
    * `history_books_balance`
-/

namespace BeamSearch

open Hoare Layers Totals

namespace History

namespace Async

variable {sizes : List Nat} {h : CpuCandidateHistory}

----------------
-- Invariant
----------------

/- A layer is on its way through the slot. -/
def Slot.InFlight (slot : Slot) : Prop :=
  slot.copyPending = true ∨ slot.writer.isSome = true

/- The rows of all depths. -/
def countTotal (h : CpuCandidateHistory) : Nat :=
  ∑ d ∈ Finset.range h.size, h.depthCounts d

/-
  `sizes` are the sizes of the committed batches. The counts are
  those of the layers, also of the ones in a slot or a job.
-/
structure Weighed
    (sizes : List Nat)
    (h : CpuCandidateHistory) : Prop where
  ready :
    ∀ d, h.ramReady d = true →
      d < h.size ∧
      (h.ramDepths d).length = h.depthCounts d ∧
      ¬ Uses h d
  working :
    ∀ job ∈ h.pruneJobs,
      job.depthIndex + 1 < h.size ∧
      ∃ previous current,
        job.worker =
          pruneAdjacentDepths job.depthIndex previous current ∧
        previous.length = h.depthCounts job.depthIndex ∧
        current.length = h.depthCounts (job.depthIndex + 1)
  apart :
    h.pruneJobs.Pairwise fun a b =>
      Apart a.depthIndex b.depthIndex
  sent :
    ∀ i, (h.slots i).InFlight →
      (h.slots i).depthIndex < h.size ∧
      (h.slots i).host.length =
        h.depthCounts (h.slots i).depthIndex ∧
      h.ramReady (h.slots i).depthIndex = false ∧
      ¬ Uses h (h.slots i).depthIndex ∧
      ∀ data, (h.slots i).writer = some data →
        data.length = (h.slots i).host.length
  alone :
    ∀ i j, (h.slots i).InFlight → (h.slots j).InFlight →
      (h.slots i).depthIndex = (h.slots j).depthIndex →
      i = j
  free :
    ∀ i, (h.slots i).free = true → ¬ (h.slots i).InFlight
  stored : h.bytesStored = 16 * countTotal h
  written : h.bytesStored + h.bytesPruned = 16 * sizes.sum
  ram : h.bytesStoredRam = 16 * sizes.sum

/- The memory mode has no bytes on disk. -/
def books (h : CpuCandidateHistory) : Books where
  counts := (List.range h.size).map h.depthCounts
  stored := h.bytesStored
  storedRam := h.bytesStoredRam
  storedDisk := 0
  pruned := h.bytesPruned

/- Weighed books balance exactly when nothing was pruned. -/
theorem Weighed.balanced_iff
    (hWeighed : Weighed sizes h) :
    (books h).Balanced sizes ↔ h.bytesPruned = 0 := by
  have hWritten := hWeighed.written
  have hRam := hWeighed.ram
  constructor
  · intro hBalanced
    have hTiers := hBalanced.tiers
    change h.bytesStored = h.bytesStoredRam + 0 at hTiers
    omega
  · intro hNone
    exact
      { tiers := by
          change h.bytesStored = h.bytesStoredRam + 0
          omega
        current := by
          change h.bytesStored = 16 * List.sum (List.map _ _)
          rw [sum_map_range]
          exact hWeighed.stored
        written := hWritten }

----------------
-- Jobs
----------------

/- A compaction adds at most what it walks over. -/
theorem length_pushed
    (previous : List Entry)
    (s : List (Option Nat) × List Entry)
    (n : Nat) :
    ((List.range n).foldl (pushStep previous) s).2.length ≤
      s.2.length + n := by
  induction n with
  | zero => exact Nat.le_refl _
  | succ n ih =>
      rw [List.range_succ, List.foldl_append, List.foldl_cons,
        List.foldl_nil, pushStep]
      split
      · dsimp only
        rw [List.length_append, List.length_singleton]
        omega
      · omega

/- A worker keeps the upper layer's length and its own books. -/
theorem pruneAdjacentDepths_lengths
    {depthIndex : Nat}
    {previous current : List Entry}
    {result : PruneResult}
    (hRun :
      pruneAdjacentDepths depthIndex previous current =
        .ok result) :
    result.depthIndex = depthIndex ∧
      result.previous.length ≤ previous.length ∧
      result.current.length = current.length ∧
      result.bytesBefore =
        (previous.length + current.length) * 16 ∧
      result.bytesAfter =
        (result.previous.length + current.length) * 16 := by
  rw [pruneAdjacentDepths] at hRun
  rcases except_bind_eq_ok hRun with ⟨marked, -, hRun⟩
  cases hRun
  have hLength :=
    length_pushed previous (marked, []) previous.length
  refine ⟨rfl, ?_, List.length_map _, rfl, rfl⟩
  rw [List.length_nil, Nat.zero_add] at hLength
  exact hLength

/- A finished job counts the rows of its pair again. -/
theorem applyResult_counts_pair
    (h : CpuCandidateHistory)
    (result : PruneResult) :
    (applyResult h result).depthCounts result.depthIndex =
        result.previous.length ∧
      (applyResult h result).depthCounts
          (result.depthIndex + 1) =
        result.current.length := by
  dsimp only [applyResult]
  rw [Function.update_of_ne (Nat.succ_ne_self _).symm,
    Function.update_self, Function.update_self]
  exact ⟨rfl, rfl⟩

/- The other counts are as they were. -/
theorem applyResult_counts_other
    (h : CpuCandidateHistory)
    (result : PruneResult)
    {d : Nat}
    (hSelf : d ≠ result.depthIndex)
    (hAbove : d ≠ result.depthIndex + 1) :
    (applyResult h result).depthCounts d = h.depthCounts d := by
  dsimp only [applyResult]
  rw [Function.update_of_ne hAbove, Function.update_of_ne hSelf]

/- The lower layer of the pair makes the total smaller. -/
theorem countTotal_applyResult
    {result : PruneResult}
    (hLt : result.depthIndex + 1 < h.size)
    (hShorter :
      result.previous.length ≤ h.depthCounts result.depthIndex)
    (hSame :
      result.current.length =
        h.depthCounts (result.depthIndex + 1)) :
    countTotal (applyResult h result) +
        (h.depthCounts result.depthIndex -
          result.previous.length) =
      countTotal h := by
  have hNe : result.depthIndex + 1 ≠ result.depthIndex :=
    Nat.succ_ne_self _
  have hFirst :=
    sum_range_update h.depthCounts
      (Nat.lt_of_succ_lt hLt) result.previous.length
  have hSecond :=
    sum_range_update
      (Function.update h.depthCounts result.depthIndex
        result.previous.length)
      hLt result.current.length
  rw [Function.update_of_ne hNe] at hSecond
  change
    (∑ d ∈ Finset.range h.size,
        Function.update
          (Function.update h.depthCounts result.depthIndex
            result.previous.length)
          (result.depthIndex + 1) result.current.length d) + _ =
      ∑ d ∈ Finset.range h.size, h.depthCounts d
  omega

/- The saved bytes go from the stored to the pruned ones. -/
theorem Weighed.finish
    {pre post : List PruneJob}
    {job : PruneJob}
    {result : PruneResult}
    (hWeighed : Weighed sizes h)
    (hJobs : h.pruneJobs = pre ++ job :: post)
    (hDone : job.worker = .ok result) :
    Weighed sizes
      { applyResult h result with pruneJobs := pre ++ post } := by
  have hMem : job ∈ h.pruneJobs := by
    rw [hJobs]
    exact List.mem_append_right _ List.mem_cons_self
  rcases hWeighed.working job hMem with
    ⟨hLt, previous, current, hWorker, hLower, hUpper⟩
  rw [hWorker] at hDone
  rcases pruneAdjacentDepths_lengths hDone with
    ⟨hDepth, hShorter, hSame, hBefore, hAfter⟩
  rcases apart_of_middle (hJobs ▸ hWeighed.apart) with
    ⟨hRest, hAway⟩
  rw [← hDepth] at hLt hLower hUpper hAway
  have hUses := uses_middle hJobs
  rw [← hDepth] at hUses
  have hTotal :=
    countTotal_applyResult hLt (hShorter.trans_eq hLower)
      (hSame.trans hUpper)
  have hStored := hWeighed.stored
  have hWritten := hWeighed.written
  have hSaved :
      result.bytesBefore - result.bytesAfter =
        16 *
          (h.depthCounts result.depthIndex -
            result.previous.length) := by
    omega
  rcases applyResult_pair h result with
    ⟨hReady, hReadyAbove, hDepths, hDepthsAbove⟩
  exact
    { ready := fun d hReady' => by
        change (applyResult h result).ramReady d = true at hReady'
        change
          d < h.size ∧
            ((applyResult h result).ramDepths d).length =
              (applyResult h result).depthCounts d ∧ _
        by_cases hSelf : d = result.depthIndex
        · rw [hSelf]
          refine
            ⟨Nat.lt_of_succ_lt hLt, ?_,
              not_uses_pair hAway (Or.inl rfl)⟩
          rw [hDepths, (applyResult_counts_pair h result).1]
        · by_cases hAbove : d = result.depthIndex + 1
          · rw [hAbove]
            refine
              ⟨hLt, ?_, not_uses_pair hAway (Or.inr rfl)⟩
            rw [hDepthsAbove,
              (applyResult_counts_pair h result).2]
          · rcases applyResult_other h result hSelf hAbove with
              ⟨hSameReady, hSameDepths⟩
            rw [hSameReady] at hReady'
            rcases hWeighed.ready d hReady' with
              ⟨hd, hLength, hFree⟩
            rw [hUses] at hFree
            refine
              ⟨hd, ?_, fun hUse => hFree (Or.inl hUse)⟩
            rw [hSameDepths,
              applyResult_counts_other h result hSelf hAbove]
            exact hLength
      working := fun other hOther => by
        have hApart := hAway other hOther
        unfold Apart at hApart
        have hMem' : other ∈ h.pruneJobs := by
          rw [hJobs]
          exact mem_of_rest hOther
        rcases hWeighed.working other hMem' with
          ⟨hOtherLt, lower, upper, hRun, hLowerLen, hUpperLen⟩
        refine ⟨hOtherLt, lower, upper, hRun, ?_, ?_⟩
        · exact
            hLowerLen.trans
              (applyResult_counts_other h result (by omega)
                (by omega)).symm
        · exact
            hUpperLen.trans
              (applyResult_counts_other h result (by omega)
                (by omega)).symm
      apart := hRest
      sent := fun i hFlight => by
        rcases hWeighed.sent i hFlight with
          ⟨hd, hHost, hNotReady, hFree, hData⟩
        rw [hUses, not_or, not_or] at hFree
        rcases hFree with ⟨hNoJob, hSelf, hAbove⟩
        refine ⟨hd, ?_, ?_, hNoJob, hData⟩
        · exact
            hHost.trans
              (applyResult_counts_other h result hSelf
                hAbove).symm
        · exact
            (applyResult_other h result hSelf hAbove).1.trans
              hNotReady
      alone := hWeighed.alone
      free := hWeighed.free
      stored := by
        change
          h.bytesStored - (result.bytesBefore - result.bytesAfter) =
            16 * countTotal (applyResult h result)
        omega
      written := by
        change
          h.bytesStored - (result.bytesBefore - result.bytesAfter) +
              (h.bytesPruned +
                (result.bytesBefore - result.bytesAfter)) =
            16 * sizes.sum
        omega
      ram := hWeighed.ram }

/- A launched job holds its two layers. -/
theorem Weighed.launch
    {d : Nat}
    (hWeighed : Weighed sizes h)
    (hFound : launchable h = some d) :
    Weighed sizes (launch h d) := by
  rcases launchable_eq_some hFound with
    ⟨hLt, -, hReady, hReadyAbove⟩
  rcases hWeighed.ready d hReady with ⟨-, hLength, hFree⟩
  rcases hWeighed.ready (d + 1) hReadyAbove with
    ⟨-, hLengthAbove, hFreeAbove⟩
  exact
    { ready := fun e hReady' => by
        rcases ne_of_launch_ready hReady' with ⟨hSelf, hAbove⟩
        rcases launch_other h hSelf hAbove with
          ⟨hSameReady, hSameDepths⟩
        rw [hSameReady] at hReady'
        rcases hWeighed.ready e hReady' with ⟨he, hLen, hUnused⟩
        rw [hSameDepths, uses_launch, not_or, not_or]
        exact ⟨he, hLen, hUnused, hSelf.symm, hAbove.symm⟩
      working := fun job hJob => by
        rcases List.mem_append.mp hJob with hOld | hNew
        · exact hWeighed.working job hOld
        · rw [List.mem_singleton] at hNew
          subst hNew
          exact ⟨hLt, _, _, rfl, hLength, hLengthAbove⟩
      apart := launch_apart hWeighed.apart hFree hFreeAbove
      sent := fun i hFlight => by
        rcases hWeighed.sent i hFlight with
          ⟨hd, hHost, hNotReady, hUnused, hData⟩
        have hSelf : (h.slots i).depthIndex ≠ d := by
          intro hEq
          rw [hEq, hReady] at hNotReady
          cases hNotReady
        have hAbove : (h.slots i).depthIndex ≠ d + 1 := by
          intro hEq
          rw [hEq, hReadyAbove] at hNotReady
          cases hNotReady
        refine ⟨hd, hHost, ?_, ?_, hData⟩
        · exact
            (launch_other h hSelf hAbove).1.trans hNotReady
        · change ¬ Uses (Async.launch h d) (h.slots i).depthIndex
          rw [uses_launch, not_or, not_or]
          exact ⟨hUnused, hSelf.symm, hAbove.symm⟩
      alone := hWeighed.alone
      free := hWeighed.free
      stored := hWeighed.stored
      written := hWeighed.written
      ram := hWeighed.ram }

/- Any stop may come; nothing is said of it. -/
def Any (_ : Stop) (_ : CpuCandidateHistory) : Prop :=
  True

/- Finished jobs give their layers back, lighter. -/
theorem finishJobs_weighed
    (poll : Poll)
    (todo : List PruneJob) :
    ∀ (running : List PruneJob)
      (h : CpuCandidateHistory),
      Weighed sizes h →
      h.pruneJobs = running ++ todo →
      Triple (fun t => t = h) (finishJobs poll running todo)
        (fun _ => Weighed sizes) Any := by
  induction todo with
  | nil =>
      intro running h hWeighed _
      exact Triple.value fun t hT => hT ▸ hWeighed
  | cons job todo ih =>
      intro running h hWeighed hJobs
      rw [finishJobs]
      apply Triple.branch
      · intro _
        cases hDone : job.worker with
        | error exception => exact Triple.stop fun _ _ => trivial
        | ok result =>
            apply Triple.read
            rintro t rfl
            apply Triple.branch
            · exact fun _ => Triple.stop fun _ _ => trivial
            · intro _
              apply Triple.write
              apply Triple.seq
                (ih running _ (hWeighed.finish hJobs hDone) rfl)
              intro _
              exact Triple.value fun _ hNext => hNext
      · intro _
        have hSplit :
            h.pruneJobs = running ++ [job] ++ todo := by
          rw [hJobs, List.append_assoc, List.singleton_append]
        exact ih (running ++ [job]) h hWeighed hSplit

/- Jobs that may run are launched. -/
theorem launchJobs_weighed
    (room : Nat) :
    Triple (Weighed sizes) (launchJobs room)
      (fun _ => Weighed sizes) Any := by
  induction room with
  | zero => exact Triple.value fun _ hWeighed => hWeighed
  | succ room ih =>
      rw [launchJobs]
      apply Triple.read
      intro h hWeighed
      cases hFound : launchable h with
      | none => exact Triple.value fun t hT => hT ▸ hWeighed
      | some d =>
          have hRest :
              Triple (fun t => t = launch h d) (launchJobs room)
                (fun _ => Weighed sizes) Any :=
            ih.pre fun t hT => hT ▸ hWeighed.launch hFound
          apply Triple.write
          apply Triple.seq hRest
          intro _
          exact Triple.value fun _ hNext => hNext

/- One turn of the pump. -/
theorem pumpJobsOnce_weighed
    (poll : Poll) :
    Triple (Weighed sizes) (pumpJobsOnce poll)
      (fun _ => Weighed sizes) Any := by
  apply Triple.read
  intro h hWeighed
  apply Triple.seq
    (finishJobs_weighed poll h.pruneJobs [] h hWeighed rfl)
  intro _
  apply Triple.read
  intro t hNext
  have hLaunch :
      Triple (fun u => u = t)
        (launchJobs (t.workerCount - t.pruneJobs.length))
        (fun _ => Weighed sizes) Any :=
    (launchJobs_weighed _).pre fun u hU => hU ▸ hNext
  apply Triple.seq hLaunch
  intro _
  exact Triple.value fun _ hEnd => hEnd

/- All its turns. -/
theorem pumpPruneJobs_weighed
    (waiting : Bool)
    (poll : Poll) :
    Triple (Weighed sizes) (pumpPruneJobs waiting poll)
      (fun _ => Weighed sizes) Any := by
  cases waiting with
  | false =>
      apply Triple.seq (pumpJobsOnce_weighed poll)
      intro _
      exact Triple.value fun _ hNext => hNext
  | true =>
      rw [pumpPruneJobs, if_pos rfl]
      apply Triple.read
      intro h hWeighed
      have hLoop :
          Triple (Weighed sizes)
            (repeatUntil Stop.outOfFuel (2 * 2 ^ h.size + 2) do
              let progressed ← pumpJobsOnce waitAll
              pure !progressed)
            (fun _ => Weighed sizes) Any := by
        apply Triple.repeatUntil
        · apply Triple.seq (pumpJobsOnce_weighed waitAll)
          intro progressed
          apply Triple.value
          intro t hNext
          split
          · exact hNext
          · exact hNext
        · exact fun _ _ => trivial
      exact hLoop.pre fun t hT => hT ▸ hWeighed

----------------
-- Slots
----------------

/- The writer gets the copied batch. -/
theorem Weighed.startWriter
    (hWeighed : Weighed sizes h)
    {i : Nat}
    (hCopied : (h.slots i).copyPending = true) :
    Weighed sizes (setSlot h i (startWriter (h.slots i))) := by
  have hFlight : (h.slots i).InFlight := Or.inl hCopied
  have hSlot :
      ∀ j,
        ((setSlot h i (Async.startWriter (h.slots i))).slots
              j).depthIndex =
            (h.slots j).depthIndex ∧
          ((setSlot h i (Async.startWriter (h.slots i))).slots
              j).host =
            (h.slots j).host ∧
          ((setSlot h i (Async.startWriter (h.slots i))).slots
              j).free =
            (h.slots j).free ∧
          (((setSlot h i (Async.startWriter (h.slots i))).slots
              j).InFlight →
            (h.slots j).InFlight) := by
    intro j
    dsimp only [setSlot]
    by_cases hEq : j = i
    · subst hEq
      rw [Function.update_self]
      exact ⟨rfl, rfl, rfl, fun _ => hFlight⟩
    · rw [Function.update_of_ne hEq]
      exact ⟨rfl, rfl, rfl, fun hSame => hSame⟩
  exact
    { ready := hWeighed.ready
      working := hWeighed.working
      apart := hWeighed.apart
      sent := fun j hSent => by
        rcases hSlot j with ⟨hDepth, hHost, -, hWas⟩
        rcases hWeighed.sent j (hWas hSent) with
          ⟨hd, hCount, hNotReady, hUnused, hData⟩
        rw [hDepth, hHost]
        refine ⟨hd, hCount, hNotReady, hUnused, ?_⟩
        intro data hWriter
        dsimp only [setSlot] at hWriter
        by_cases hEq : j = i
        · subst hEq
          rw [Function.update_self] at hWriter
          cases hWriter
          exact List.length_map entry
        · rw [Function.update_of_ne hEq] at hWriter
          exact hData data hWriter
      alone := fun j k hSent hSent' hSame => by
        rw [(hSlot j).1, (hSlot k).1] at hSame
        exact
          hWeighed.alone j k ((hSlot j).2.2.2 hSent)
            ((hSlot k).2.2.2 hSent') hSame
      free := fun j hFree hSent => by
        rw [(hSlot j).2.2.1] at hFree
        exact
          hWeighed.free j hFree ((hSlot j).2.2.2 hSent)
      stored := hWeighed.stored
      written := hWeighed.written
      ram := hWeighed.ram }

/- A published layer is in the books. -/
theorem Weighed.publish
    {i : Nat}
    {data : List Entry}
    (hWeighed : Weighed sizes h)
    (hCopied : (h.slots i).copyPending = false)
    (hWriter : (h.slots i).writer = some data) :
    Weighed sizes (publish h i data) := by
  have hFlight : (h.slots i).InFlight := by
    refine Or.inr ?_
    rw [hWriter]
    rfl
  rcases hWeighed.sent i hFlight with
    ⟨hd, hCount, hNotReady, hUnused, hData⟩
  have hSelf :
      ¬ ((Async.publish h i data).slots i).InFlight := by
    dsimp only [Async.publish]
    rw [Function.update_self]
    rintro (hPending | hValid)
    · rw [hCopied] at hPending
      cases hPending
    · cases hValid
  have hOther :
      ∀ j, j ≠ i →
        (Async.publish h i data).slots j = h.slots j := by
    intro j hNe
    exact Function.update_of_ne hNe ..
  have hNe :
      ∀ j, ((Async.publish h i data).slots j).InFlight → j ≠ i := by
    rintro j hSent rfl
    exact hSelf hSent
  exact
    { ready := fun d hReady => by
        dsimp only [Async.publish] at hReady ⊢
        by_cases hEq : d = (h.slots i).depthIndex
        · rw [hEq, Function.update_self]
          exact
            ⟨hd, (hData data hWriter).trans hCount, hUnused⟩
        · rw [Function.update_of_ne hEq] at hReady ⊢
          exact hWeighed.ready d hReady
      working := hWeighed.working
      apart := hWeighed.apart
      sent := fun j hSent => by
        have hDiff := hNe j hSent
        rw [hOther j hDiff] at hSent ⊢
        rcases hWeighed.sent j hSent with
          ⟨hLt, hLength, hWaits, hFree, hRest⟩
        have hDepth :
            (h.slots j).depthIndex ≠ (h.slots i).depthIndex :=
          fun hSame =>
            hDiff (hWeighed.alone j i hSent hFlight hSame)
        refine ⟨hLt, hLength, ?_, hFree, hRest⟩
        dsimp only [Async.publish]
        rw [Function.update_of_ne hDepth]
        exact hWaits
      alone := fun j k hSent hSent' hSame => by
        have hDiff := hNe j hSent
        have hDiff' := hNe k hSent'
        rw [hOther j hDiff] at hSent hSame
        rw [hOther k hDiff'] at hSent' hSame
        exact hWeighed.alone j k hSent hSent' hSame
      free := fun j hFree hSent => by
        have hDiff := hNe j hSent
        rw [hOther j hDiff] at hFree hSent
        exact hWeighed.free j hFree hSent
      stored := hWeighed.stored
      written := hWeighed.written
      ram := hWeighed.ram }

/- A poll of a slot. -/
theorem pollSlot_weighed
    (poll : Poll)
    (i : Nat) :
    Triple (Weighed sizes) (pollSlot poll i)
      (fun _ => Weighed sizes) Any := by
  have hCopy :
      Triple (Weighed sizes) (pollCopy poll i)
        (fun _ => Weighed sizes) Any := by
    apply Triple.read
    intro h hWeighed
    apply Triple.branch
    · intro hCopied
      rw [Bool.and_eq_true] at hCopied
      apply Triple.write
      exact
        Triple.value fun t hT =>
          hT ▸ hWeighed.startWriter hCopied.1
    · exact fun _ => Triple.value fun t hT => hT ▸ hWeighed
  have hWrite :
      Triple (Weighed sizes) (pollWriter poll i)
        (fun _ => Weighed sizes) Any := by
    apply Triple.read
    intro h hWeighed
    apply Triple.branch
    · exact fun _ => Triple.value fun t hT => hT ▸ hWeighed
    · intro hVisit
      rw [Bool.not_eq_true, Bool.or_eq_false_iff] at hVisit
      cases hWriter : (h.slots i).writer with
      | none => exact Triple.value fun t hT => hT ▸ hWeighed
      | some data =>
          apply Triple.branch
          · intro _
            apply Triple.branch
            · exact fun _ => Triple.stop fun _ _ => trivial
            · intro _
              apply Triple.write
              exact
                Triple.value fun t hT =>
                  hT ▸ hWeighed.publish hVisit.1 hWriter
          · exact fun _ =>
              Triple.value fun t hT => hT ▸ hWeighed
  apply Triple.seq hCopy
  intro _
  apply Triple.seq hWrite
  intro _
  exact Triple.value fun _ hNext => hNext

/- A poll of all slots. -/
theorem pollSlots_weighed
    (poll : Poll) :
    Triple (Weighed sizes) (pollSlots poll)
      (fun _ => Weighed sizes) Any := by
  apply Triple.read
  intro h hWeighed
  have hWalk :
      Triple (Weighed sizes)
        (anyOf (List.range h.slotCount) (pollSlot poll))
        (fun _ => Weighed sizes) Any :=
    Triple.anyOf fun i _ => pollSlot_weighed poll i
  exact hWalk.pre fun t hT => hT ▸ hWeighed

/- The whole pump. -/
theorem pumpCompleted_weighed
    (waiting : Bool)
    (poll : Poll) :
    Triple (Weighed sizes) (pumpCompleted waiting poll)
      (fun _ => Weighed sizes) Any := by
  cases waiting with
  | true =>
      have hLoop :
          Triple (Weighed sizes)
            (repeatUntil Stop.outOfFuel 2 do
              let progressed ← pollSlots waitAll
              pure !progressed)
            (fun _ => Weighed sizes) Any := by
        apply Triple.repeatUntil
        · apply Triple.seq (pollSlots_weighed waitAll)
          intro progressed
          apply Triple.value
          intro t hNext
          split
          · exact hNext
          · exact hNext
        · exact fun _ _ => trivial
      apply Triple.seq hLoop
      intro _
      exact pumpPruneJobs_weighed true poll
  | false =>
      apply Triple.seq (pollSlots_weighed poll)
      intro _
      exact pumpPruneJobs_weighed false poll

----------------
-- Commits
----------------

/- A taken slot has nothing. -/
theorem Weighed.take
    (hWeighed : Weighed sizes h)
    (i : Nat) :
    Weighed sizes (takeSlot h i) := by
  have hSlot :
      ∀ j,
        ((takeSlot h i).slots j).depthIndex =
            (h.slots j).depthIndex ∧
          ((takeSlot h i).slots j).host = (h.slots j).host ∧
          ((takeSlot h i).slots j).writer =
            (h.slots j).writer ∧
          (((takeSlot h i).slots j).InFlight ↔
            (h.slots j).InFlight) ∧
          (((takeSlot h i).slots j).free = true →
            (h.slots j).free = true) := by
    intro j
    dsimp only [takeSlot, setSlot]
    by_cases hEq : j = i
    · subst hEq
      rw [Function.update_self]
      exact ⟨rfl, rfl, rfl, Iff.rfl, fun hTaken => nomatch hTaken⟩
    · rw [Function.update_of_ne hEq]
      exact ⟨rfl, rfl, rfl, Iff.rfl, fun hFree => hFree⟩
  exact
    { ready := hWeighed.ready
      working := hWeighed.working
      apart := hWeighed.apart
      sent := fun j hSent => by
        rcases hSlot j with ⟨hDepth, hHost, hWriter, hSame, -⟩
        rw [hDepth, hHost, hWriter]
        exact hWeighed.sent j (hSame.mp hSent)
      alone := fun j k hSent hSent' hSame => by
        rw [(hSlot j).1, (hSlot k).1] at hSame
        exact
          hWeighed.alone j k ((hSlot j).2.2.2.1.mp hSent)
            ((hSlot k).2.2.2.1.mp hSent') hSame
      free := fun j hFree hSent =>
        hWeighed.free j ((hSlot j).2.2.2.2 hFree)
          ((hSlot j).2.2.2.1.mp hSent)
      stored := hWeighed.stored
      written := hWeighed.written
      ram := hWeighed.ram }

/- A commit puts its batch in flight. -/
theorem Weighed.commit
    {i : Nat}
    (hWeighed : Weighed sizes h)
    (hIdle : ¬ (h.slots i).InFlight)
    (batch : List CandidateMeta) :
    Weighed (sizes ++ [batch.length])
      (pushDepth (fillSlot h i h.size batch) batch.length) := by
  have hSelf :
      ((pushDepth (fillSlot h i h.size batch)
            batch.length).slots i).depthIndex = h.size ∧
        ((pushDepth (fillSlot h i h.size batch)
            batch.length).slots i).host = batch ∧
        ((pushDepth (fillSlot h i h.size batch)
            batch.length).slots i).writer =
          (h.slots i).writer ∧
        ((pushDepth (fillSlot h i h.size batch)
            batch.length).slots i).free = false := by
    dsimp only [pushDepth, fillSlot, setSlot]
    rw [Function.update_self]
    exact ⟨rfl, rfl, rfl, rfl⟩
  have hOther :
      ∀ j, j ≠ i →
        (pushDepth (fillSlot h i h.size batch)
            batch.length).slots j =
          h.slots j :=
    fun j hNe => Function.update_of_ne hNe ..
  have hCounts :
      ∀ d, d ≠ h.size →
        (pushDepth (fillSlot h i h.size batch)
            batch.length).depthCounts d =
          h.depthCounts d :=
    fun d hNe => Function.update_of_ne hNe ..
  have hReadys :
      ∀ d, d ≠ h.size →
        (pushDepth (fillSlot h i h.size batch)
            batch.length).ramReady d =
          h.ramReady d :=
    fun d hNe => Function.update_of_ne hNe ..
  have hNewCount :
      (pushDepth (fillSlot h i h.size batch)
          batch.length).depthCounts h.size =
        batch.length :=
    Function.update_self ..
  have hNewReady :
      (pushDepth (fillSlot h i h.size batch)
          batch.length).ramReady h.size =
        false :=
    Function.update_self ..
  have hNoJob : ¬ Uses h h.size := by
    rintro ⟨job, hJob, hUse⟩
    have hLt := (hWeighed.working job hJob).1
    rw [usesDepth_iff] at hUse
    omega
  have hSizes :
      (sizes ++ [batch.length]).sum = sizes.sum + batch.length := by
    rw [List.sum_append, List.sum_singleton]
  have hTotal :
      countTotal
          (pushDepth (fillSlot h i h.size batch) batch.length) =
        countTotal h + batch.length :=
    sum_range_update_self h.depthCounts h.size batch.length
  have hStored := hWeighed.stored
  have hWritten := hWeighed.written
  have hRam := hWeighed.ram
  exact
    { ready := fun d hReady => by
        have hNe : d ≠ h.size := by
          rintro rfl
          rw [hNewReady] at hReady
          cases hReady
        rw [hReadys d hNe] at hReady
        rcases hWeighed.ready d hReady with
          ⟨hd, hLength, hUnused⟩
        refine ⟨Nat.lt_succ_of_lt hd, ?_, hUnused⟩
        rw [hCounts d hNe, ← hLength]
        exact congrArg List.length (Function.update_of_ne hNe ..)
      working := fun job hJob => by
        rcases hWeighed.working job hJob with
          ⟨hd, previous, current, hRun, hLower, hUpper⟩
        refine
          ⟨Nat.lt_succ_of_lt hd, previous, current, hRun, ?_, ?_⟩
        · exact hLower.trans (hCounts _ (by omega)).symm
        · exact hUpper.trans (hCounts _ (by omega)).symm
      apart := hWeighed.apart
      sent := fun j hSent => by
        by_cases hEq : j = i
        · subst hEq
          rw [hSelf.1, hSelf.2.1, hSelf.2.2.1]
          refine
            ⟨Nat.lt_succ_self _, hNewCount.symm, hNewReady,
              hNoJob, ?_⟩
          intro data hWriter
          exact
            absurd (Or.inr (hWriter ▸ rfl)) hIdle
        · rw [hOther j hEq] at hSent ⊢
          rcases hWeighed.sent j hSent with
            ⟨hd, hHost, hNotReady, hUnused, hData⟩
          have hNe : (h.slots j).depthIndex ≠ h.size := by
            omega
          refine
            ⟨Nat.lt_succ_of_lt hd, ?_, ?_, hUnused, hData⟩
          · exact hHost.trans (hCounts _ hNe).symm
          · exact (hReadys _ hNe).trans hNotReady
      alone := fun j k hSent hSent' hSame => by
        by_cases hEq : j = i
        · by_cases hEq' : k = i
          · exact hEq.trans hEq'.symm
          · rw [hEq, hSelf.1, hOther k hEq'] at hSame
            rw [hOther k hEq'] at hSent'
            have hd := (hWeighed.sent k hSent').1
            omega
        · by_cases hEq' : k = i
          · rw [hEq', hSelf.1, hOther j hEq] at hSame
            rw [hOther j hEq] at hSent
            have hd := (hWeighed.sent j hSent).1
            omega
          · rw [hOther j hEq] at hSent hSame
            rw [hOther k hEq'] at hSent' hSame
            exact hWeighed.alone j k hSent hSent' hSame
      free := fun j hFree hSent => by
        by_cases hEq : j = i
        · rw [hEq, hSelf.2.2.2] at hFree
          cases hFree
        · rw [hOther j hEq] at hFree hSent
          exact hWeighed.free j hFree hSent
      stored := by
        change h.bytesStored + batch.length * 16 = 16 * countTotal _
        omega
      written := by
        change
          h.bytesStored + batch.length * 16 + h.bytesPruned = _
        omega
      ram := by
        change h.bytesStoredRam + batch.length * 16 = _
        omega }

/- A slot was taken that has no layer on its way. -/
def Taken
    (sizes : List Nat)
    (i : Nat)
    (t : CpuCandidateHistory) : Prop :=
  Weighed sizes t ∧ ¬ (t.slots i).InFlight

/- The slot that was taken has nothing in flight. -/
theorem Weighed.taken
    {i : Nat}
    (hWeighed : Weighed sizes h)
    (hFound : findFree h = some i) :
    Taken sizes i (takeSlot h i) := by
  refine ⟨hWeighed.take i, ?_⟩
  dsimp only [takeSlot, setSlot]
  rw [Function.update_self]
  exact hWeighed.free i (firstFree_eq_some hFound).2

/- A slot is acquired, or the call fails. -/
theorem acquireSlot_weighed
    (poll : Poll) :
    Triple (Weighed sizes) (acquireSlot poll)
      (Taken sizes) Any := by
  apply acquire_spec (pumpCompleted_weighed false poll)
  · apply (pumpCompleted_weighed true poll).post
    exact fun _ t hWeighed => ⟨hWeighed, fun _ => trivial⟩
  · exact fun h i hWeighed hFound => hWeighed.taken hFound

/- A commit adds its batch. -/
theorem commitSlot_weighed
    (i depthIndex : Nat)
    (batch : List CandidateMeta) :
    Triple (Taken sizes i) (commitSlot i depthIndex batch)
      (fun _ => Weighed (sizes ++ [batch.length])) Any := by
  apply Triple.read
  rintro h ⟨hWeighed, hIdle⟩
  apply Triple.branch
  · exact fun _ => Triple.stop fun _ _ => trivial
  · intro _
    apply Triple.write
    by_cases hDepth : depthIndex = h.size
    · rw [if_neg (not_not_intro hDepth), hDepth]
      rintro t rfl
      exact hWeighed.commit hIdle batch
    · rw [if_pos hDepth]
      exact Triple.stop fun _ _ => trivial

/- The wait at the end. -/
theorem finishAll_weighed :
    Triple (Weighed sizes) finishAll (fun _ => Weighed sizes)
      Any := by
  apply Triple.seq (pumpCompleted_weighed true waitAll)
  intro _
  exact pumpPruneJobs_weighed true waitAll

/- One call adds what it commits. -/
theorem runEvent_weighed
    (event : HistoryEvent) :
    Triple (Weighed sizes) (runEvent event)
      (fun _ =>
        Weighed (sizes ++ batchSizes event.batches))
      Any := by
  cases event with
  | pump poll =>
      apply (pumpCompleted_weighed false poll).post
      exact fun _ t hEnd => (List.append_nil sizes).symm ▸ hEnd
  | finish =>
      apply finishAll_weighed.post
      exact fun _ t hEnd => (List.append_nil sizes).symm ▸ hEnd
  | commit poll batch =>
      apply Triple.seq (acquireSlot_weighed poll)
      intro i
      apply Triple.read
      intro h hTaken
      apply (commitSlot_weighed i h.size batch).pre
      exact fun t hT => hT ▸ hTaken

/- All calls, by the rule for runs. -/
theorem runEvents_weighed
    (events : List HistoryEvent)
    (sizes : List Nat) :
    Triple (Weighed sizes) (runEvents events)
      (fun _ =>
        Weighed (sizes ++ batchSizes (committedBatches events)))
      Any := by
  rw [committedBatches, batchSizes, List.map_flatMap]
  exact
    forEach_adds (fun seen event => @runEvent_weighed seen event)
      sizes events

/- The first history weighs nothing. -/
theorem initializeHistory_weighed
    {capacity : UInt32}
    {slotCount workerCount : Nat}
    {start : CpuCandidateHistory}
    (hNew :
      initializeHistory capacity slotCount workerCount =
        .ok start) :
    Weighed [] start := by
  rw [initializeHistory] at hNew
  split at hNew
  · cases hNew
  · cases hNew
    have hIdle : ¬ freeSlot.InFlight := by
      rintro (hCopied | hWriter)
      · cases hCopied
      · cases hWriter
    exact
      { ready := fun _ hReady => by cases hReady
        working := fun _ hJob => by cases hJob
        apart := List.Pairwise.nil
        sent := fun _ hSent => absurd hSent hIdle
        alone := fun _ _ hSent => absurd hSent hIdle
        free := fun _ _ => hIdle
        stored := rfl
        written := rfl
        ram := rfl }

----------------
-- What Pruning Leaves
----------------

/- The pair keeps the number of layers. -/
theorem length_prunePairAt
    (layers : List (List Entry))
    (d : Nat) :
    (prunePairAt layers d).length = layers.length := by
  rw [prunePairAt]
  split
  · rw [List.length_set, List.length_set]
  · rfl

/- So does the whole prune. -/
theorem length_pruneSequentially (log : List (List Entry)) :
    (pruneSequentially log).length = log.length := by
  have hFold :
      ∀ (ds : List Nat) (layers : List (List Entry)),
        (ds.foldl prunePairAt layers).length = layers.length := by
    intro ds
    induction ds with
    | nil => exact fun _ => rfl
    | cons d ds ih =>
        intro layers
        rw [List.foldl_cons, ih, length_prunePairAt]
  exact hFold _ log

/- Every entry with a layer above is a parent. -/
def AllParents (log : List (List Entry)) : Prop :=
  ∀ d previous current,
    logged log d = some previous →
    logged log (d + 1) = some current →
    ∀ i < previous.length, i ∈ current.map Linked.parent

/- Clean layers are those whose entries are parents. -/
theorem clean_wholeRows_iff (log : List (List Entry)) :
    (∀ d, Clean (wholeRows (logged log)) d) ↔ AllParents log := by
  constructor
  · intro hClean d previous current hPrevious hCurrent i hi
    have hMem : (previous[i], i) ∈ previous.zipIdx :=
      List.mem_zipIdx_iff_getElem?.mpr
        (List.getElem?_eq_getElem hi)
    have hParent :=
      hClean d previous.zipIdx current.zipIdx
        (by rw [wholeRows, hPrevious]; rfl)
        (by rw [wholeRows, hCurrent]; rfl) _ hMem
    rcases List.mem_map.mp hParent with ⟨p, hp, hEq⟩
    exact
      List.mem_map.mpr ⟨p.1, List.fst_mem_of_mem_zipIdx hp, hEq⟩
  · intro hAll d below own hBelow hOwn p hp
    rcases wholeRows_eq_some hBelow with
      ⟨previous, hPrevious, rfl⟩
    rcases wholeRows_eq_some hOwn with ⟨current, hCurrent, rfl⟩
    have hAt := List.mem_zipIdx_iff_getElem?.mp hp
    have hLt := (List.getElem?_eq_some_iff.mp hAt).1
    rcases List.mem_map.mp
        (hAll d previous current hPrevious hCurrent p.2 hLt) with
      ⟨item, hItem, hEq⟩
    rcases List.getElem?_of_mem hItem with ⟨j, hj⟩
    exact
      List.mem_map.mpr
        ⟨(item, j), List.mem_zipIdx_iff_getElem?.mpr hj, hEq⟩

/- Pruning keeps all bytes just when every entry is a parent. -/
theorem pruned_sizes_iff
    {log : List (List Entry)}
    (hValid : ValidParents (logged log)) :
    ((pruneSequentially log).map List.length).sum =
        (log.map List.length).sum ↔
      AllParents log := by
  rcases pruneSequentially_spec hValid with
    ⟨rows, hTracks, hShown, hClean⟩
  have hWhole := tracks_wholeRows hValid
  have hRow :
      ∀ d batch, logged log d = some batch →
        ∃ own,
          rows d = some own ∧
          own.Sublist batch.zipIdx ∧
          (pruneSequentially log)[d]? =
            some (layer (belowOf rows d) own) := by
    intro d batch hBatch
    cases hRows : rows d with
    | none =>
        rw [(hTracks.present d).mp hRows] at hBatch
        cases hBatch
    | some own =>
        refine
          ⟨own, rfl, hTracks.sublist d own batch hRows hBatch, ?_⟩
        rw [hShown, view, hRows, Option.map_some]
  constructor
  · intro hSum
    have hLe :
        List.Forall₂ (· ≤ ·)
          ((pruneSequentially log).map List.length)
          (log.map List.length) := by
      rw [List.forall₂_iff_get]
      refine ⟨?_, fun d hd hd' => ?_⟩
      · rw [List.length_map, List.length_map,
          length_pruneSequentially]
      · rw [List.length_map] at hd hd'
        rcases hRow d log[d] (List.getElem?_eq_getElem hd') with
          ⟨own, -, hSub, hAt⟩
        have hGet := (List.getElem?_eq_some_iff.mp hAt).2
        simp only [List.get_eq_getElem, List.getElem_map]
        rw [hGet, layer, List.length_map]
        simpa using hSub.length_le
    have hLengths := eq_of_sum_eq hLe hSum
    have hSame : rows = wholeRows (logged log) := by
      funext d
      cases hBatch : logged log d with
      | none =>
          rw [(hTracks.present d).mpr hBatch, wholeRows, hBatch]
          rfl
      | some batch =>
          rcases hRow d batch hBatch with
            ⟨own, hRows, hSub, hAt⟩
          have hLength : own.length = batch.zipIdx.length := by
            have hEach := congrArg (·[d]?) hLengths
            rw [List.getElem?_map, List.getElem?_map, hAt,
              show log[d]? = some batch from hBatch] at hEach
            simpa [layer] using hEach
          rw [hRows, hSub.eq_of_length hLength, wholeRows, hBatch]
          rfl
    exact (clean_wholeRows_iff log).mp (hSame ▸ hClean)
  · intro hAll
    have hSame : rows = wholeRows (logged log) :=
      hTracks.eq_of_clean hWhole hClean
        ((clean_wholeRows_iff log).mpr hAll)
        fun d (hd : log.length ≤ d) =>
          List.getElem?_eq_none_iff.mpr hd
    have hUnchanged : pruneSequentially log = log := by
      apply List.ext_getElem?
      intro d
      rw [hShown, hSame, view_wholeRows hValid]
      rfl
    rw [hUnchanged]

/- Every candidate with a layer above is the parent of one. -/
def EveryEntryParent (batches : List (List CandidateMeta)) : Prop :=
  ∀ d previous current,
    batches[d]? = some previous →
    batches[d + 1]? = some current →
    ∀ i < previous.length,
      ∃ candidate ∈ current, candidate.parentIdx.toNat = i

/- The same of the committed rows. -/
theorem allParents_iff (batches : List (List CandidateMeta)) :
    AllParents (batches.map (List.map entry)) ↔
      EveryEntryParent batches := by
  constructor
  · intro hAll d previous current hPrevious hCurrent i hi
    have hMem :=
      hAll d (previous.map entry) (current.map entry)
        (by rw [logged, List.getElem?_map, hPrevious]; rfl)
        (by rw [logged, List.getElem?_map, hCurrent]; rfl) i
        (by rw [List.length_map]; exact hi)
    rw [List.map_map] at hMem
    exact List.mem_map.mp hMem
  · intro hEvery d previous current hPrevious hCurrent i hi
    rw [logged, List.getElem?_map] at hPrevious hCurrent
    rcases Option.map_eq_some_iff.mp hPrevious with
      ⟨lower, hLower, rfl⟩
    rcases Option.map_eq_some_iff.mp hCurrent with
      ⟨upper, hUpper, rfl⟩
    rw [List.length_map] at hi
    rw [List.map_map]
    exact List.mem_map.mpr (hEvery d lower upper hLower hUpper i hi)

----------------
-- The Books At The End
----------------

/- A run and the wait at its end. -/
def runAll (events : List HistoryEvent) : HistoryM PUnit := do
  runEvents events
  finishAll

/- With pruning the books balance just when nothing is pruned. -/
theorem pruned_balanced_iff
    {capacity : UInt32}
    {slotCount workerCount : Nat}
    {start : CpuCandidateHistory}
    (hNew :
      initializeHistory capacity slotCount workerCount =
        .ok start)
    (events : List HistoryEvent)
    (hFits :
      ∀ batch ∈ committedBatches events,
        batch.length ≤ capacity.toNat)
    (hParents : ParentsInBatches (committedBatches events)) :
    ∃ h,
      runAll events start = .ok ⟨⟩ h ∧
      ((books h).Balanced
          (batchSizes (committedBatches events)) ↔
        EveryEntryParent (committedBatches events)) := by
  rcases async_converges capacity slotCount workerCount start
      events hNew hFits hParents with
    ⟨h, hRun, -, hReady, -, -, hLayers, -⟩
  have hWeighed :
      Weighed (batchSizes (committedBatches events)) h := by
    have hEnd :
        Triple (Weighed []) (runAll events)
          (fun _ =>
            Weighed (batchSizes (committedBatches events)))
          Any := by
      apply Triple.seq (runEvents_weighed events [])
      intro _
      exact finishAll_weighed
    have hStart := hEnd start (initializeHistory_weighed hNew)
    rw [show runAll events start = .ok ⟨⟩ h from hRun] at hStart
    exact hStart
  refine ⟨h, hRun, ?_⟩
  have hCounts :
      countTotal h =
        ((pruneSequentially
          ((committedBatches events).map
            (List.map entry))).map List.length).sum := by
    rw [← hLayers, List.map_map, sum_map_range]
    apply Finset.sum_congr rfl
    intro d hd
    exact
      (hWeighed.ready d (hReady d (Finset.mem_range.mp hd))).2.1.symm
  have hSizes :
      (batchSizes (committedBatches events)).sum =
        (((committedBatches events).map
          (List.map entry)).map List.length).sum := by
    rw [batchSizes, List.map_map]
    congr 1
    apply List.map_congr_left
    intro batch _
    exact (List.length_map entry).symm
  have hStored := hWeighed.stored
  have hWritten := hWeighed.written
  rw [hWeighed.balanced_iff, ← allParents_iff,
    ← pruned_sizes_iff hParents.validParents, ← hCounts, ← hSizes]
  constructor
  · intro hNone
    omega
  · intro hSame
    omega

end Async

----------------
-- Both Stores
----------------

/-
  The books of the synchronous store balance after every run.
-/
def StoreBooksBalance : Prop :=
  ∀ (config : HistoryConfig)
    (store store' : HistoryStore)
    (calls : List WriteCall),
    HistoryStore.new config = .ok store →
    writes calls store = .ok ⟨⟩ store' →
    store'.books.Balanced
      (batchSizes (calls.map WriteCall.batch))

/-
  The books of the modes that do not prune balance after every
  run.
-/
def UnprunedBooksBalance : Prop :=
  ∀ (s : Unpruned.Settings)
    (start : Unpruned.CpuCandidateHistory)
    (events : List Unpruned.HistoryEvent)
    (last : Unpruned.Poll),
    Unpruned.initializeHistory s = .ok start →
    match Unpruned.runAll events last start with
    | .ok _ h =>
        (Unpruned.books h).Balanced
          (batchSizes (Unpruned.committedBatches events))
    | .error stop _ => stop ≠ .outOfFuel

/-
  The books of the mode that prunes balance after every run;
  this does not hold of all runs.
-/
def PrunedBooksBalance : Prop :=
  ∀ (capacity : UInt32)
    (slotCount workerCount : Nat)
    (start h : Async.CpuCandidateHistory)
    (events : List Async.HistoryEvent),
    Async.initializeHistory capacity slotCount workerCount =
      .ok start →
    Async.runAll events start = .ok ⟨⟩ h →
    (Async.books h).Balanced
      (batchSizes (Async.committedBatches events))

/- The second entry of the lower layer has no child. -/
def childlessEvents : List Async.HistoryEvent :=
  [.commit Async.waitAll [lateCandidate 0 7, lateCandidate 0 8],
    .commit Async.waitAll [lateCandidate 0 5]]

/- What is stored, in memory and pruned at the end of a run. -/
def bytesAfter
    (events : List Async.HistoryEvent) :
    Option (Nat × Nat × Nat) :=
  match Async.initializeHistory 4 2 1 with
  | .error _ => none
  | .ok start =>
      match Async.runAll events start with
      | .ok _ h =>
          some (h.bytesStored, h.bytesStoredRam, h.bytesPruned)
      | .error _ _ => none

/- Entries that are no parents are pruned. -/
theorem bytesAfter_childless :
    bytesAfter childlessEvents = some (32, 48, 16) := by
  decide

/-
  So the books of the mode that prunes do not always balance.
-/
theorem history_books_unbalanced :
    ¬ (StoreBooksBalance ∧ UnprunedBooksBalance ∧
      PrunedBooksBalance) := by
  rintro ⟨-, -, hPruned⟩
  have hBytes := bytesAfter_childless
  rw [bytesAfter] at hBytes
  split at hBytes
  · cases hBytes
  · next start hNew =>
      split at hBytes
      · next h hRun =>
          have hTiers :=
            (hPruned 4 2 1 start h childlessEvents hNew hRun).tiers
          change h.bytesStored = h.bytesStoredRam + 0 at hTiers
          have hEach := Option.some.inj hBytes
          rw [Prod.mk.injEq, Prod.mk.injEq] at hEach
          omega
      · cases hBytes

/-
  The crate's books balance after any successful writes, the
  native ones without pruning after any run, and with pruning
  just when every entry below the last layer is a parent.
-/
theorem history_books_balance
    {capacity : UInt32}
    {slotCount workerCount : Nat}
    {start : Async.CpuCandidateHistory}
    (hNew :
      Async.initializeHistory capacity slotCount workerCount =
        .ok start)
    (events : List Async.HistoryEvent)
    (hFits :
      ∀ batch ∈ Async.committedBatches events,
        batch.length ≤ capacity.toNat)
    (hParents :
      Async.ParentsInBatches (Async.committedBatches events)) :
    StoreBooksBalance ∧
      UnprunedBooksBalance ∧
      ∃ h,
        Async.runAll events start = .ok ⟨⟩ h ∧
        ((Async.books h).Balanced
            (batchSizes (Async.committedBatches events)) ↔
          Async.EveryEntryParent
            (Async.committedBatches events)) := by
  refine ⟨?_, ?_, ?_⟩
  · intro config store store' calls hStore hWrites
    exact writes_balanced hStore hWrites
  · intro s start events last hUnpruned
    exact Unpruned.unpruned_balanced hUnpruned events last
  · exact Async.pruned_balanced_iff hNew events hFits hParents

/- An arena layer whose disk write fails. -/
def failingPoll : Unpruned.Poll where
  copyDone _ := true
  work _ := []
  last _ := some "disk full"

/- A hybrid history with both arenas. -/
def arenaSettings : Unpruned.Settings where
  mode := .staticHybrid
  capacity := 8
  slotCount := 2
  workerCount := 2
  depthLimit := 4
  moves := 2
  ramBudgetBytes := 928
  diskBudgetBytes := 224

/- A run whose disk write fails. -/
def arenaEvents : List Unpruned.HistoryEvent :=
  [.commit failingPoll failingPoll []
    [lateCandidate 0 7, lateCandidate 0 8]]

theorem history_books_balance_late :
    (∃ store store',
      HistoryStore.new lateConfig = .ok store ∧
      writes [upperCall, lowerCall] store = .ok ⟨⟩ store' ∧
      store'.books.Balanced [2, 3]) ∧
    (∃ start h,
      Unpruned.initializeHistory arenaSettings = .ok start ∧
      Unpruned.runAll arenaEvents failingPoll start =
        .ok ⟨⟩ h ∧
      (Unpruned.books h).Balanced [2]) ∧
    ∃ start h,
      Async.initializeHistory 4 2 1 = .ok start ∧
      Async.runAll childlessEvents start = .ok ⟨⟩ h ∧
      ¬ (Async.books h).Balanced [2, 1] := by
  have hParents :
      Async.ParentsInBatches
        (Async.committedBatches childlessEvents) := by
    intro d previous current hPrevious hCurrent
    cases d with
    | zero =>
        cases hPrevious
        cases hCurrent
        decide
    | succ d => cases hCurrent
  have hBalance :=
    @history_books_balance 4 2 1 _ rfl childlessEvents
      (by decide) hParents
  refine ⟨?_, ?_, ?_⟩
  · have hOk :
        ((HistoryStore.new lateConfig).toOption.any fun store =>
          ((writes [upperCall, lowerCall]).run' store).isSome) =
          true := by
      decide
    cases hNew : HistoryStore.new lateConfig with
    | error error =>
        rw [hNew] at hOk
        cases hOk
    | ok store =>
        rw [hNew] at hOk
        change
          ((writes [upperCall, lowerCall]).run' store).isSome =
            true at hOk
        delta EStateM.run' EStateM.run at hOk
        cases hWrites : writes [upperCall, lowerCall] store with
        | error error store' =>
            rw [hWrites] at hOk
            cases hOk
        | ok value store' =>
            exact
              ⟨store, store', rfl, hWrites,
                hBalance.1 lateConfig store store' _ hNew
                  hWrites⟩
  · have hOk :
        ((Unpruned.initializeHistory arenaSettings).toOption.any
          fun start =>
            ((Unpruned.runAll arenaEvents failingPoll).run'
              start).isSome) = true := by
      decide +kernel
    cases hNew : Unpruned.initializeHistory arenaSettings with
    | error error =>
        rw [hNew] at hOk
        cases hOk
    | ok start =>
        rw [hNew] at hOk
        change
          ((Unpruned.runAll arenaEvents failingPoll).run'
            start).isSome = true at hOk
        delta EStateM.run' EStateM.run at hOk
        have hBooks :=
          hBalance.2.1 arenaSettings start arenaEvents
            failingPoll hNew
        cases hRun :
          Unpruned.runAll arenaEvents failingPoll start with
        | error error h =>
            rw [hRun] at hOk
            cases hOk
        | ok value h =>
            rw [hRun] at hBooks
            exact ⟨start, h, rfl, hRun, hBooks⟩
  · rcases hBalance.2.2 with ⟨h, hRun, hIff⟩
    refine ⟨_, h, rfl, hRun, fun hBalanced => ?_⟩
    rcases hIff.mp hBalanced 0 _ _ rfl rfl 1 (by decide) with
      ⟨candidate, hMem, hParent⟩
    cases List.mem_singleton.mp hMem
    cases hParent

end History

end BeamSearch
