import BeamSearch.History.AsyncPruner
import Mathlib.Algebra.Order.Ring.GeomSum

/-
  The prune jobs over the published layers.

  The published layers are the view of rows, whichever of them
  a job holds. A clean flag is only cleared by the job of its
  pair, and a finished job marks the pair below.

  Main declarations:
    * `PruneInv`
    * `PruneInv.finish`, `PruneInv.launch`
    * `pumpPruneJobs_spec`
-/

namespace BeamSearch

open Hoare Layers

namespace History

namespace Async

variable {previous : List Entry} {h : CpuCandidateHistory}
    {batches : Nat → Option (List Entry)} {rows : Nat → Option (Rows Entry)}

----------------
-- One Job
----------------

/- After `n` entries: the kept ones and their places. -/
structure Pushed
    (keep : Nat → Bool)
    (previous : List Entry)
    (n : Nat)
    (s : List (Option Nat) × List Entry) : Prop where
  entries : s.2 = compact keep (previous.take n)
  length : s.2.length = rankBelow keep n
  placed :
    ∀ i < n, keep i = true →
      s.1[i]? = some (some (rankBelow keep i))
  marks :
    ∀ i, n ≤ i → i < previous.length →
      s.1[i]? = some (if keep i then some 0 else none)
  remapLength : s.1.length = previous.length

/- The next entry is kept or dropped. -/
theorem Pushed.step
    {keep : Nat → Bool}
    {n : Nat}
    {s : List (Option Nat) × List Entry}
    (hState : Pushed keep previous n s)
    (hn : n < previous.length) :
    Pushed keep previous (n + 1) (pushStep previous s n) := by
  have hMark := hState.marks n (Nat.le_refl n) hn
  have hRead := List.getElem?_eq_getElem hn
  have hTake :
      previous.take (n + 1) = previous.take n ++ [previous[n]] :=
    (List.take_concat_get' previous n hn).symm
  have hLength : (previous.take n).length = n := by
    rw [List.length_take]
    omega
  have hRemap := hState.remapLength
  cases hKeep : keep n with
  | true =>
      rw [hKeep, if_pos rfl] at hMark
      have hStep :
          pushStep previous s n =
            (s.1.set n (some s.2.length), s.2 ++ [previous[n]]) := by
        rw [pushStep, hMark, hRead]
      rw [hStep]
      exact
        { entries := by
            rw [hTake, compact_concat, hLength, hKeep,
              if_pos rfl, ← hState.entries]
          length := by
            rw [List.length_append, hState.length,
              rankBelow_add_one, hKeep, if_pos rfl]
            rfl
          placed := fun i hi hKeepI => by
            dsimp only
            by_cases hEq : n = i
            · subst hEq
              rw [List.getElem?_set_self (by omega),
                hState.length]
            · rw [List.getElem?_set_ne hEq]
              exact hState.placed i (by omega) hKeepI
          marks := fun i hi hLt => by
            dsimp only
            rw [List.getElem?_set_ne (by omega)]
            exact hState.marks i (by omega) hLt
          remapLength := by
            rw [List.length_set, hRemap] }
  | false =>
      rw [hKeep] at hMark
      have hStep : pushStep previous s n = s := by
        rw [pushStep, hMark]
        rfl
      rw [hStep]
      exact
        { entries := by
            rw [hTake, compact_concat, hLength, hKeep,
              hState.entries]
            exact (List.append_nil _).symm
          length := by
            rw [hState.length, rankBelow_add_one, hKeep]
            rfl
          placed := fun i hi hKeepI => by
            by_cases hEq : n = i
            · subst hEq
              rw [hKeep] at hKeepI
              cases hKeepI
            · exact hState.placed i (by omega) hKeepI
          marks := fun i hi hLt =>
            hState.marks i (by omega) hLt
          remapLength := hRemap }

/- Every entry has been looked at. -/
theorem Pushed.run
    {keep : Nat → Bool}
    {s : List (Option Nat) × List Entry}
    (hState : Pushed keep previous 0 s)
    (n : Nat)
    (hn : n ≤ previous.length) :
    Pushed keep previous n
      ((List.range n).foldl (pushStep previous) s) := by
  induction n with
  | zero => exact hState
  | succ n ih =>
      rw [List.range_succ, List.foldl_append, List.foldl_cons,
        List.foldl_nil]
      exact (ih (by omega)).step (by omega)

/- A worker prunes the pair it was given. -/
theorem pruneAdjacentDepths_eq
    {current : List Entry}
    (depthIndex : Nat)
    (hParents :
      ∀ item ∈ current, item.parentIdx < previous.length) :
    ∃ result,
      pruneAdjacentDepths depthIndex previous current =
        .ok result ∧
      result.depthIndex = depthIndex ∧
      result.previous = (prunePair previous current).1 ∧
      result.current = (prunePair previous current).2 := by
  rcases markParents_eq
      (Exception.runtimeError
        "candidate history prune parent index out of range")
      current (List.replicate previous.length none)
      (by simpa using hParents) with
    ⟨marked, hRun, hLength, hMarked⟩
  rw [List.length_replicate] at hLength hMarked
  have hStart :
      Pushed (fun i => decide (i ∈ current.map Linked.parent))
        previous 0 (marked, []) :=
    { entries := rfl
      length := rfl
      placed := fun i hi => absurd hi (Nat.not_lt_zero i)
      marks := fun i _ hi => by
        dsimp only
        rw [hMarked i hi, List.getElem?_replicate, if_pos hi]
        by_cases hIn : i ∈ current.map Linked.parent
        · rw [if_pos hIn, if_pos (decide_eq_true hIn)]
        · rw [if_neg hIn, if_neg (by simpa using hIn)]
      remapLength := hLength }
  have hEnd := hStart.run previous.length (Nat.le_refl _)
  have hEntries := hEnd.entries
  rw [List.take_length] at hEntries
  rw [pruneAdjacentDepths, hRun]
  refine ⟨_, rfl, rfl, hEntries, ?_⟩
  dsimp only [prunePair]
  apply List.map_congr_left
  intro item hItem
  have hPlaced :=
    hEnd.placed item.parentIdx (hParents item hItem)
      (decide_eq_true (List.mem_map_of_mem hItem))
  rw [remapParent, hPlaced]
  rfl

----------------
-- Invariant Of The Jobs
----------------

/- Two pairs of layers have no layer in common. -/
def Apart (d e : Nat) : Prop :=
  d + 1 < e ∨ e + 1 < d

/- Some job works on the layer. -/
def Uses (h : CpuCandidateHistory) (depth : Nat) : Prop :=
  ∃ job ∈ h.pruneJobs, job.usesDepth depth = true

/-
  `batches` are the published layers, `rows` what is left of
  them. A layer in a job counts with what the job took.
-/
structure PruneInv
    (batches : Nat → Option (List Entry))
    (rows : Nat → Option (Rows Entry))
    (h : CpuCandidateHistory) : Prop where
  tracks : Tracks batches rows
  bounded : ∀ d, h.size ≤ d → batches d = none
  shown :
    ∀ d l, view rows d = some l → ¬ Uses h d →
      h.ramReady d = true ∧ h.ramDepths d = l
  ready :
    ∀ d, h.ramReady d = true →
      batches d ≠ none ∧ ¬ Uses h d
  working :
    ∀ job ∈ h.pruneJobs, ∃ previous current,
      view rows job.depthIndex = some previous ∧
      view rows (job.depthIndex + 1) = some current ∧
      job.worker =
        pruneAdjacentDepths job.depthIndex previous current ∧
      h.pruneDirty job.depthIndex = true
  apart :
    h.pruneJobs.Pairwise fun a b =>
      Apart a.depthIndex b.depthIndex
  clean :
    ∀ d, batches (d + 1) ≠ none → h.pruneDirty d = false →
      batches d ≠ none ∧ Clean rows d
  owned : ∀ owners ∈ h.owners, owners.Pairwise Apart

/- What the jobs leave alone. -/
def Stable (h h' : CpuCandidateHistory) : Prop :=
  h'.workerCount = h.workerCount ∧
  h'.slotCapacity = h.slotCapacity ∧
  h'.slotCount = h.slotCount ∧
  h'.slots = h.slots ∧
  h'.size = h.size

theorem Stable.refl (h : CpuCandidateHistory) : Stable h h :=
  ⟨rfl, rfl, rfl, rfl, rfl⟩

theorem Stable.trans
    {h' h'' : CpuCandidateHistory}
    (hFirst : Stable h h')
    (hSecond : Stable h' h'') :
    Stable h h'' := by
  rcases hFirst with ⟨h₁, h₂, h₃, h₄, h₅⟩
  rcases hSecond with ⟨g₁, g₂, g₃, g₄, g₅⟩
  exact
    ⟨g₁.trans h₁, g₂.trans h₂, g₃.trans h₃, g₄.trans h₄,
      g₅.trans h₅⟩

/- The dirty pairs as the digits of a number. -/
def weight (size : Nat) (dirty : Nat → Bool) : Nat :=
  ∑ d ∈ Finset.range size, if dirty d then 2 ^ d else 0

/- The weight is a binary number with a digit for each pair. -/
theorem weight_lt
    (size : Nat)
    (dirty : Nat → Bool) :
    weight size dirty < 2 ^ size := by
  rw [weight, ← Finset.sum_filter]
  apply Nat.geomSum_lt (Nat.le_refl 2)
  intro d hd
  exact Finset.mem_range.mp (Finset.mem_filter.mp hd).1

/- A digit goes, and at most the next lower one comes. -/
theorem weight_lower
    {size d : Nat}
    {dirty dirty' : Nat → Bool}
    (hLt : d < size)
    (hSet : dirty d = true)
    (hCleared : dirty' d = false)
    (hOther : ∀ e, e ≠ d → e + 1 ≠ d → dirty' e = dirty e) :
    weight size dirty' < weight size dirty := by
  have hDigit :
      ∀ e ∈ Finset.range size,
        (if dirty' e then 2 ^ e else 0) +
            (if e = d then 2 ^ d else 0) ≤
          (if dirty e then 2 ^ e else 0) +
            (if e + 1 = d then 2 ^ e else 0) := by
    intro e _
    by_cases hEq : e = d
    · subst hEq
      simp [hSet, hCleared]
    · by_cases hNext : e + 1 = d
      · have hTerm :
            (if dirty' e then 2 ^ e else 0) ≤ 2 ^ e := by
          split
          · exact Nat.le_refl _
          · exact Nat.zero_le _
        rw [if_neg hEq, if_pos hNext, Nat.add_zero]
        exact hTerm.trans (Nat.le_add_left _ _)
      · rw [if_neg hEq, if_neg hNext, hOther e hEq hNext]
  have hSum := Finset.sum_le_sum hDigit
  rw [Finset.sum_add_distrib, Finset.sum_add_distrib,
    Finset.sum_ite_eq' _ d fun _ => 2 ^ d,
    if_pos (Finset.mem_range.mpr hLt)] at hSum
  have hLow :
      (∑ e ∈ Finset.range size, if e + 1 = d then 2 ^ e else 0) <
        2 ^ d := by
    rw [← Finset.sum_filter]
    apply Nat.geomSum_lt (Nat.le_refl 2)
    intro e he
    have hNext := (Finset.mem_filter.mp he).2
    omega
  change weight size dirty' + _ ≤ weight size dirty + _ at hSum
  omega

theorem usesDepth_iff (job : PruneJob) (depth : Nat) :
    job.usesDepth depth = true ↔
      job.depthIndex = depth ∨ job.depthIndex + 1 = depth := by
  rw [PruneJob.usesDepth, Bool.or_eq_true, beq_iff_eq,
    beq_iff_eq]

theorem view_ne_none_iff
    (hTracks : Tracks batches rows)
    (d : Nat) :
    view rows d ≠ none ↔ batches d ≠ none := by
  rw [not_iff_not, ← hTracks.present d, view,
    Option.map_eq_none_iff]

/- The parents in a view point into the view below. -/
theorem parent_lt_of_view
    (hTracks : Tracks batches rows)
    {d : Nat}
    {current : List Entry}
    (hPrevious : view rows d = some previous)
    (hCurrent : view rows (d + 1) = some current) :
    ∀ item ∈ current, item.parentIdx < previous.length := by
  rcases Option.map_eq_some_iff.mp hPrevious with
    ⟨below, hBelow, rfl⟩
  rcases Option.map_eq_some_iff.mp hCurrent with
    ⟨own, hOwn, rfl⟩
  intro item hItem
  rcases List.mem_map.mp hItem with ⟨p, hp, rfl⟩
  have hLinked := hTracks.linked d below own hBelow hOwn p hp
  have hLt := List.idxOf_lt_length_of_mem hLinked
  change
    slot (belowOf rows (d + 1)) (Linked.parent p.1) < _
  change slot (rows d) (Linked.parent p.1) < _
  rw [hBelow, slot, layer, List.length_map]
  simpa [indices] using hLt

----------------
-- A Finished Job
----------------

/- The pair of a finished job is clean. -/
theorem applyResult_dirty_self
    (h : CpuCandidateHistory)
    (result : PruneResult) :
    (applyResult h result).pruneDirty result.depthIndex =
      false := by
  dsimp only [applyResult]
  split
  · rw [Function.update_of_ne (by omega), Function.update_self]
  · exact Function.update_self ..

/- The pair below it has to be looked at again. -/
theorem applyResult_dirty_below
    (h : CpuCandidateHistory)
    (result : PruneResult)
    {e : Nat}
    (hBelow : e + 1 = result.depthIndex) :
    (applyResult h result).pruneDirty e = true := by
  dsimp only [applyResult]
  rw [if_pos (by omega), ← hBelow]
  exact Function.update_self ..

/- The other pairs are as they were. -/
theorem applyResult_dirty_other
    (h : CpuCandidateHistory)
    (result : PruneResult)
    {e : Nat}
    (hSelf : e ≠ result.depthIndex)
    (hBelow : e + 1 ≠ result.depthIndex) :
    (applyResult h result).pruneDirty e = h.pruneDirty e := by
  dsimp only [applyResult]
  split
  · rw [Function.update_of_ne (by omega),
      Function.update_of_ne hSelf]
  · rw [Function.update_of_ne hSelf]

/- The other layers are as they were. -/
theorem applyResult_other
    (h : CpuCandidateHistory)
    (result : PruneResult)
    {e : Nat}
    (hSelf : e ≠ result.depthIndex)
    (hAbove : e ≠ result.depthIndex + 1) :
    (applyResult h result).ramReady e = h.ramReady e ∧
      (applyResult h result).ramDepths e = h.ramDepths e := by
  dsimp only [applyResult]
  rw [Function.update_of_ne hAbove, Function.update_of_ne hSelf,
    Function.update_of_ne hAbove, Function.update_of_ne hSelf]
  exact ⟨rfl, rfl⟩

/- Both layers of the pair are back, pruned. -/
theorem applyResult_pair
    (h : CpuCandidateHistory)
    (result : PruneResult) :
    (applyResult h result).ramReady result.depthIndex = true ∧
      (applyResult h result).ramReady (result.depthIndex + 1) =
        true ∧
      (applyResult h result).ramDepths result.depthIndex =
        result.previous ∧
      (applyResult h result).ramDepths (result.depthIndex + 1) =
        result.current := by
  have hNe : result.depthIndex ≠ result.depthIndex + 1 :=
    (Nat.succ_ne_self _).symm
  dsimp only [applyResult]
  rw [Function.update_of_ne hNe, Function.update_of_ne hNe,
    Function.update_self, Function.update_self,
    Function.update_self, Function.update_self]
  exact ⟨rfl, rfl, rfl, rfl⟩

theorem Apart.symm
    {d e : Nat}
    (hApart : Apart d e) :
    Apart e d :=
  Or.symm hApart

/- A finished job was apart from the ones that go on. -/
theorem apart_of_middle
    {pre post : List PruneJob}
    {job : PruneJob}
    (hApart :
      (pre ++ job :: post).Pairwise fun a b =>
        Apart a.depthIndex b.depthIndex) :
    (pre ++ post).Pairwise
        (fun a b => Apart a.depthIndex b.depthIndex) ∧
      ∀ other ∈ pre ++ post,
        Apart job.depthIndex other.depthIndex := by
  rw [List.pairwise_middle fun h => Apart.symm h,
    List.pairwise_cons] at hApart
  exact ⟨hApart.2, hApart.1⟩

/- The jobs that go on were there before. -/
theorem mem_of_rest
    {pre post : List PruneJob}
    {job other : PruneJob}
    (hOther : other ∈ pre ++ post) :
    other ∈ pre ++ job :: post :=
  List.mem_append.mpr
    ((List.mem_append.mp hOther).imp id
      (List.mem_cons_of_mem job))

/- A depth is used by the finished job or by one that goes on. -/
theorem uses_middle
    {pre post : List PruneJob}
    {job : PruneJob}
    (hJobs : h.pruneJobs = pre ++ job :: post)
    (d : Nat) :
    Uses h d ↔
      (∃ other ∈ pre ++ post, other.usesDepth d = true) ∨
        d = job.depthIndex ∨ d = job.depthIndex + 1 := by
  unfold Uses
  rw [hJobs]
  constructor
  · rintro ⟨other, hOther, hUse⟩
    rcases List.mem_append.mp hOther with hIn | hIn
    · exact Or.inl ⟨other, List.mem_append_left _ hIn, hUse⟩
    · rcases List.mem_cons.mp hIn with rfl | hIn
      · rw [usesDepth_iff] at hUse
        exact Or.inr (hUse.imp Eq.symm Eq.symm)
      · exact Or.inl ⟨other, List.mem_append_right _ hIn, hUse⟩
  · rintro (⟨other, hOther, hUse⟩ | hPair)
    · exact ⟨other, mem_of_rest hOther, hUse⟩
    · refine
        ⟨job, List.mem_append_right _ List.mem_cons_self, ?_⟩
      rw [usesDepth_iff]
      exact hPair.imp Eq.symm Eq.symm

/- The pair of a finished job is in no other job. -/
theorem not_uses_pair
    {jobs : List PruneJob}
    {e d : Nat}
    (hAway : ∀ other ∈ jobs, Apart e other.depthIndex)
    (hPair : d = e ∨ d = e + 1) :
    ¬ ∃ other ∈ jobs, other.usesDepth d = true := by
  rintro ⟨other, hOther, hUse⟩
  have hApart := hAway other hOther
  unfold Apart at hApart
  rw [usesDepth_iff] at hUse
  omega

/- A finished job gives its two layers back. -/
theorem PruneInv.finish
    {pre post : List PruneJob}
    {job : PruneJob}
    (hInv : PruneInv batches rows h)
    (hJobs : h.pruneJobs = pre ++ job :: post) :
    ∃ result rows',
      job.worker = .ok result ∧
      result.depthIndex + 1 < h.size ∧
      PruneInv batches rows'
        { applyResult h result with pruneJobs := pre ++ post } ∧
      weight h.size (applyResult h result).pruneDirty <
        weight h.size h.pruneDirty := by
  have hMem : job ∈ h.pruneJobs := by
    rw [hJobs]
    exact List.mem_append_right _ List.mem_cons_self
  rcases hInv.working job hMem with
    ⟨previous, current, hPrevious, hCurrent, hWorker, hDirty⟩
  rcases pruneAdjacentDepths_eq job.depthIndex
      (parent_lt_of_view hInv.tracks hPrevious hCurrent) with
    ⟨result, hRun, hDepth, hResultPrev, hResultCurr⟩
  have hPublished : batches (job.depthIndex + 1) ≠ none := by
    rw [← view_ne_none_iff hInv.tracks, hCurrent]
    exact Option.some_ne_none current
  have hLt : job.depthIndex + 1 < h.size := by
    by_contra hNot
    exact hPublished (hInv.bounded _ (by omega))
  rcases Option.map_eq_some_iff.mp hPrevious with
    ⟨below, hBelow, -⟩
  rcases Option.map_eq_some_iff.mp hCurrent with
    ⟨own, hOwn, -⟩
  have hView :=
    hInv.tracks.view_prune hBelow hOwn hPrevious hCurrent
  have hApart := hInv.apart
  rw [hJobs] at hApart
  rcases apart_of_middle hApart with ⟨hRest, hAway⟩
  rw [← hDepth] at hDirty hLt hPublished hAway hBelow hOwn
  rw [← hDepth] at hView hPrevious hCurrent
  have hUses := uses_middle hJobs
  rw [← hDepth] at hUses
  have hSub : ∀ other ∈ pre ++ post, other ∈ h.pruneJobs := by
    intro other hOther
    rw [hJobs]
    exact mem_of_rest hOther
  have hPair := applyResult_pair h result
  refine
    ⟨result, prunedRows rows result.depthIndex own below,
      hWorker.trans hRun, hLt, ?_,
      weight_lower (by omega) hDirty
        (applyResult_dirty_self h result)
        fun e hSelf hBelow' =>
          applyResult_dirty_other h result hSelf hBelow'⟩
  exact
    { tracks := hInv.tracks.prune hBelow hOwn
      bounded := hInv.bounded
      shown := fun d l hShown hNot => by
        rw [hView] at hShown
        by_cases hAbove : d = result.depthIndex + 1
        · subst hAbove
          rw [Function.update_self] at hShown
          cases hShown
          exact
            ⟨hPair.2.1, hPair.2.2.2.trans hResultCurr⟩
        · rw [Function.update_of_ne hAbove] at hShown
          by_cases hSelf : d = result.depthIndex
          · subst hSelf
            rw [Function.update_self] at hShown
            cases hShown
            exact ⟨hPair.1, hPair.2.2.1.trans hResultPrev⟩
          · rw [Function.update_of_ne hSelf] at hShown
            have hOther :=
              applyResult_other h result hSelf hAbove
            have hOld :=
              hInv.shown d l hShown fun hUse =>
                hNot
                  (((hUses d).mp hUse).resolve_right
                    (not_or.mpr ⟨hSelf, hAbove⟩))
            exact
              ⟨hOther.1.trans hOld.1, hOther.2.trans hOld.2⟩
      ready := fun d hReady => by
        by_cases hIn :
            d = result.depthIndex ∨ d = result.depthIndex + 1
        · refine ⟨?_, not_uses_pair hAway hIn⟩
          rw [← view_ne_none_iff hInv.tracks]
          rcases hIn with rfl | rfl
          · rw [hPrevious]
            exact Option.some_ne_none previous
          · rw [hCurrent]
            exact Option.some_ne_none current
        · have hOther :=
            applyResult_other h result
              (fun hSelf => hIn (Or.inl hSelf))
              (fun hAbove => hIn (Or.inr hAbove))
          have hOld := hInv.ready d (hOther.1.symm.trans hReady)
          refine ⟨hOld.1, fun hUse => hOld.2 ?_⟩
          rcases hUse with ⟨other, hOther, hUse⟩
          exact ⟨other, hSub other hOther, hUse⟩
      working := fun other hOther => by
        rcases hInv.working other (hSub other hOther) with
          ⟨lower, upper, hLower, hUpper, hWork, hOld⟩
        have hOtherApart := hAway other hOther
        unfold Apart at hOtherApart
        refine ⟨lower, upper, ?_, ?_, hWork, ?_⟩
        · rw [hView, Function.update_of_ne (by omega),
            Function.update_of_ne (by omega)]
          exact hLower
        · rw [hView, Function.update_of_ne (by omega),
            Function.update_of_ne (by omega)]
          exact hUpper
        · rw [← hOld]
          exact
            applyResult_dirty_other h result (by omega)
              (by omega)
      apart := hRest
      clean := fun d hUpper hClear => by
        by_cases hSelf : d = result.depthIndex
        · subst hSelf
          refine ⟨?_, clean_prunedRows hOwn⟩
          rw [← view_ne_none_iff hInv.tracks, hPrevious]
          exact Option.some_ne_none previous
        · by_cases hNext : d + 1 = result.depthIndex
          · rw [applyResult_dirty_below h result hNext] at hClear
            cases hClear
          · have hOld :=
              applyResult_dirty_other h result hSelf hNext
            have hWas :=
              hInv.clean d hUpper (hOld.symm.trans hClear)
            exact
              ⟨hWas.1, hWas.2.prune_other hBelow hNext hSelf⟩
      owned := hInv.owned }

----------------
-- A Pass Over The Jobs
----------------

/- No exception leaves the pruner. -/
def Never (_ : Stop) (_ : CpuCandidateHistory) : Prop :=
  False

/- A poll at which everything asked is done. -/
structure AllDone (poll : Poll) : Prop where
  copies : ∀ i, poll.copyDone i = true
  writers : ∀ i, poll.writerDone i = true
  jobs : ∀ d, poll.jobDone d = true

theorem allDone_waitAll : AllDone waitAll where
  copies _ := rfl
  writers _ := rfl
  jobs _ := rfl

/-
  What a walk over the jobs leaves, with those it has passed
  and those to come.
-/
structure Finished
    (batches : Nat → Option (List Entry))
    (poll : Poll)
    (running todo : List PruneJob)
    (h : CpuCandidateHistory)
    (any : Bool)
    (t : CpuCandidateHistory) : Prop where
  kept : ∃ rows, PruneInv batches rows t
  stable : Stable h t
  idle : any = false → t = h
  lower :
    any = true →
      weight t.size t.pruneDirty < weight h.size h.pruneDirty
  drained :
    AllDone poll →
      t.pruneJobs = running ∧ (any = false → todo = [])

/- Every job that is done is finished, the rest keep running. -/
theorem finishJobs_spec
    (poll : Poll)
    (todo : List PruneJob) :
    ∀ (running : List PruneJob)
      (h : CpuCandidateHistory)
      (rows : Nat → Option (Rows Entry)),
      PruneInv batches rows h →
      h.pruneJobs = running ++ todo →
      Triple (fun t => t = h) (finishJobs poll running todo)
        (Finished batches poll running todo h) Never := by
  induction todo with
  | nil =>
      intro running h rows hInv hJobs
      apply Triple.value
      rintro t rfl
      exact
        { kept := ⟨rows, hInv⟩
          stable := Stable.refl t
          idle := fun _ => rfl
          lower := fun hAny => nomatch hAny
          drained := fun _ =>
            ⟨by rw [hJobs, List.append_nil], fun _ => rfl⟩ }
  | cons job todo ih =>
      intro running h rows hInv hJobs
      rw [finishJobs]
      apply Triple.branch
      · intro _
        rcases hInv.finish hJobs with
          ⟨result, rows', hWorker, hLt, hNext, hLower⟩
        rw [hWorker]
        apply Triple.read
        rintro t rfl
        rw [if_neg (by omega)]
        apply Triple.write
        apply Triple.seq (ih running _ rows' hNext rfl)
        intro any
        apply Triple.value
        intro u hRest
        have hStable : Stable t u := hRest.stable
        have hWeight :
            weight u.size u.pruneDirty <
              weight t.size t.pruneDirty := by
          cases any with
          | true => exact (hRest.lower rfl).trans hLower
          | false =>
              rw [hRest.idle rfl]
              exact hLower
        exact
          { kept := hRest.kept
            stable := hStable
            idle := fun hAny => nomatch hAny
            lower := fun _ => hWeight
            drained := fun hAll =>
              ⟨(hRest.drained hAll).1, fun hAny => nomatch hAny⟩ }
      · intro hNotDone
        have hSplit : h.pruneJobs = running ++ [job] ++ todo := by
          rw [hJobs, List.append_assoc, List.singleton_append]
        apply (ih (running ++ [job]) h rows hInv hSplit).post
        intro any t hRest
        exact
          { kept := hRest.kept
            stable := hRest.stable
            idle := hRest.idle
            lower := hRest.lower
            drained := fun hAll =>
              absurd (hAll.jobs job.depthIndex) hNotDone }

/- A pair that may be launched is dirty and has both layers. -/
theorem launchable_eq_some
    {d : Nat}
    (hFound : launchable h = some d) :
    d + 1 < h.size ∧
      h.pruneDirty d = true ∧
      h.ramReady d = true ∧
      h.ramReady (d + 1) = true := by
  have hMem := List.mem_of_find?_eq_some hFound
  have hTest := List.find?_some hFound
  rw [List.mem_reverse, List.mem_range] at hMem
  simp only [Bool.and_eq_true] at hTest
  exact
    ⟨by omega, hTest.1.1.1, hTest.1.1.2, hTest.1.2⟩

/- The new job uses the two layers of its pair. -/
theorem uses_launch
    (h : CpuCandidateHistory)
    (d e : Nat) :
    Uses (launch h d) e ↔ Uses h e ∨ d = e ∨ d + 1 = e := by
  have hJobs :
      (launch h d).pruneJobs =
        h.pruneJobs ++
          [⟨d, pruneAdjacentDepths d (h.ramDepths d)
            (h.ramDepths (d + 1))⟩] :=
    rfl
  unfold Uses
  rw [hJobs]
  simp only [List.mem_append, List.mem_singleton,
    or_and_right, exists_or, exists_eq_left, usesDepth_iff]

/- A pair that no job uses is apart from all of them. -/
theorem launch_apart
    {d : Nat}
    (hApart :
      h.pruneJobs.Pairwise fun a b =>
        Apart a.depthIndex b.depthIndex)
    (hFree : ¬ Uses h d)
    (hFreeAbove : ¬ Uses h (d + 1)) :
    (launch h d).pruneJobs.Pairwise fun a b =>
      Apart a.depthIndex b.depthIndex := by
  refine
    List.pairwise_append.mpr
      ⟨hApart, List.pairwise_singleton _ _, ?_⟩
  intro job hJob other hOther
  rw [List.mem_singleton] at hOther
  subst hOther
  unfold Apart
  by_contra hNot
  have hClash :
      job.usesDepth d = true ∨ job.usesDepth (d + 1) = true := by
    rw [usesDepth_iff, usesDepth_iff]
    dsimp only at hNot
    omega
  rcases hClash with hUse | hUse
  · exact hFree ⟨job, hJob, hUse⟩
  · exact hFreeAbove ⟨job, hJob, hUse⟩

/- The two layers of the pair are taken. -/
theorem launch_taken
    (h : CpuCandidateHistory)
    (d : Nat) :
    (launch h d).ramReady d = false ∧
      (launch h d).ramReady (d + 1) = false := by
  dsimp only [launch]
  rw [Function.update_of_ne (Nat.succ_ne_self d).symm,
    Function.update_self, Function.update_self]
  exact ⟨rfl, rfl⟩

/- The other layers are as they were. -/
theorem launch_other
    (h : CpuCandidateHistory)
    {d e : Nat}
    (hSelf : e ≠ d)
    (hAbove : e ≠ d + 1) :
    (launch h d).ramReady e = h.ramReady e ∧
      (launch h d).ramDepths e = h.ramDepths e := by
  dsimp only [launch]
  rw [Function.update_of_ne hAbove, Function.update_of_ne hSelf,
    Function.update_of_ne hAbove, Function.update_of_ne hSelf]
  exact ⟨rfl, rfl⟩

/- A layer that is there after the launch is not of the pair. -/
theorem ne_of_launch_ready
    {d e : Nat}
    (hReady : (launch h d).ramReady e = true) :
    e ≠ d ∧ e ≠ d + 1 := by
  rcases launch_taken h d with ⟨hTaken, hTakenAbove⟩
  constructor
  · rintro rfl
    rw [hTaken] at hReady
    cases hReady
  · rintro rfl
    rw [hTakenAbove] at hReady
    cases hReady

/- A ready pair goes into a job. -/
theorem PruneInv.launch
    {d : Nat}
    (hInv : PruneInv batches rows h)
    (hFound : launchable h = some d) :
    PruneInv batches rows (launch h d) := by
  rcases launchable_eq_some hFound with
    ⟨-, hDirty, hReady, hReadyAbove⟩
  rcases hInv.ready d hReady with ⟨hPublished, hFree⟩
  rcases hInv.ready (d + 1) hReadyAbove with
    ⟨hPublishedAbove, hFreeAbove⟩
  rw [← view_ne_none_iff hInv.tracks] at hPublished
  rw [← view_ne_none_iff hInv.tracks] at hPublishedAbove
  rcases Option.ne_none_iff_exists'.mp hPublished with
    ⟨previous, hPrevious⟩
  rcases Option.ne_none_iff_exists'.mp hPublishedAbove with
    ⟨current, hCurrent⟩
  have hTaken := (hInv.shown d previous hPrevious hFree).2
  have hTakenAbove :=
    (hInv.shown (d + 1) current hCurrent hFreeAbove).2
  have hApart := launch_apart hInv.apart hFree hFreeAbove
  exact
    { tracks := hInv.tracks
      bounded := hInv.bounded
      shown := fun e l hShown hNot => by
        rw [uses_launch, not_or, not_or] at hNot
        rcases hNot with ⟨hUnused, hSelf, hAbove⟩
        rcases launch_other h (Ne.symm hSelf)
            (Ne.symm hAbove) with
          ⟨hSameReady, hSameDepths⟩
        rw [hSameReady, hSameDepths]
        exact hInv.shown e l hShown hUnused
      ready := fun e hReady' => by
        rcases ne_of_launch_ready hReady' with ⟨hSelf, hAbove⟩
        rw [(launch_other h hSelf hAbove).1] at hReady'
        have hOld := hInv.ready e hReady'
        rw [uses_launch, not_or, not_or]
        exact ⟨hOld.1, hOld.2, hSelf.symm, hAbove.symm⟩
      working := fun job hJob => by
        rcases List.mem_append.mp hJob with hOld | hNew
        · exact hInv.working job hOld
        · rw [List.mem_singleton] at hNew
          subst hNew
          refine
            ⟨previous, current, hPrevious, hCurrent, ?_, hDirty⟩
          rw [hTaken, hTakenAbove]
      apart := hApart
      clean := hInv.clean
      owned := fun owners hOwners => by
        rcases List.mem_append.mp hOwners with hOld | hNew
        · exact hInv.owned owners hOld
        · rw [List.mem_singleton] at hNew
          subst hNew
          exact List.pairwise_map.mpr hApart }

/- What a launch loop leaves; the dirty pairs stay. -/
structure Launched
    (batches : Nat → Option (List Entry))
    (room : Nat)
    (h : CpuCandidateHistory)
    (any : Bool)
    (t : CpuCandidateHistory) : Prop where
  kept : ∃ rows, PruneInv batches rows t
  stable : Stable h t
  dirty : t.pruneDirty = h.pruneDirty
  idle :
    any = false → t = h ∧ (0 < room → launchable h = none)
  busy : any = true → t.pruneJobs ≠ []

/- Jobs are launched while there is room and a pair to prune. -/
theorem launchJobs_spec
    (room : Nat) :
    ∀ h : CpuCandidateHistory,
      PruneInv batches rows h →
      Triple (fun t => t = h) (launchJobs room)
        (Launched batches room h) Never := by
  induction room with
  | zero =>
      intro h hInv
      apply Triple.value
      rintro t rfl
      exact
        { kept := ⟨rows, hInv⟩
          stable := Stable.refl t
          dirty := rfl
          idle := fun _ =>
            ⟨rfl, fun hRoom => absurd hRoom (Nat.lt_irrefl 0)⟩
          busy := fun hAny => nomatch hAny }
  | succ room ih =>
      intro h hInv
      rw [launchJobs]
      apply Triple.read
      rintro t rfl
      cases hFound : launchable t with
      | none =>
          apply Triple.value
          rintro u rfl
          exact
            { kept := ⟨rows, hInv⟩
              stable := Stable.refl u
              dirty := rfl
              idle := fun _ => ⟨rfl, fun _ => hFound⟩
              busy := fun hAny => nomatch hAny }
      | some d =>
          apply Triple.write
          apply Triple.seq (ih (launch t d) (hInv.launch hFound))
          intro any
          apply Triple.value
          intro u hRest
          exact
            { kept := hRest.kept
              stable := hRest.stable
              dirty := hRest.dirty
              idle := fun hAny => nomatch hAny
              busy := fun _ => by
                cases any with
                | true => exact hRest.busy rfl
                | false =>
                    rw [(hRest.idle rfl).1]
                    exact List.append_ne_nil_of_right_ne_nil _
                      (List.cons_ne_nil _ _) }

/- Twice the weight, and one more when nobody works. -/
def measure (h : CpuCandidateHistory) : Nat :=
  2 * weight h.size h.pruneDirty +
    if h.pruneJobs = [] then 1 else 0

/- The measure of the loop is bounded. -/
theorem measure_lt (h : CpuCandidateHistory) :
    measure h < 2 * 2 ^ h.size + 2 := by
  have hLt := weight_lt h.size h.pruneDirty
  rw [measure]
  split <;> omega

/- Nothing is left to do for the pruner. -/
def Settled (h : CpuCandidateHistory) : Prop :=
  h.pruneJobs = [] ∧ launchable h = none

/- What a whole pump leaves. -/
structure Pumped
    (batches : Nat → Option (List Entry))
    (h t : CpuCandidateHistory) : Prop where
  kept : ∃ rows, PruneInv batches rows t
  stable : Stable h t

/-
  One turn finishes the jobs that are done and launches
  others.
-/
theorem pumpJobsOnce_spec
    (poll : Poll)
    (h : CpuCandidateHistory)
    (hInv : PruneInv batches rows h)
    (hWorkers : 0 < h.workerCount) :
    Triple (fun t => t = h) (pumpJobsOnce poll)
      (fun any t =>
        Pumped batches h t ∧
          (AllDone poll →
            if any then measure t < measure h
            else Settled t))
      Never := by
  apply Triple.read
  rintro t rfl
  apply Triple.seq
    (finishJobs_spec poll t.pruneJobs [] t rows hInv rfl)
  intro finished
  apply Triple.read
  intro u hFinished
  rcases hFinished.kept with ⟨rows', hKept⟩
  apply Triple.seq
    (launchJobs_spec
      (u.workerCount - u.pruneJobs.length) u hKept)
  intro launched
  apply Triple.value
  intro v hLaunched
  refine
    ⟨⟨hLaunched.kept, hFinished.stable.trans hLaunched.stable⟩,
      fun hAll => ?_⟩
  have hEmpty := (hFinished.drained hAll).1
  have hRoom : 0 < u.workerCount - u.pruneJobs.length := by
    rw [hEmpty, hFinished.stable.1]
    exact hWorkers
  have hSize : v.size = u.size := hLaunched.stable.2.2.2.2
  cases finished with
  | true =>
      have hLower := hFinished.lower rfl
      rw [if_pos (Bool.true_or _), measure, measure,
        hLaunched.dirty, hSize]
      split <;> split <;> omega
  | false =>
      have hNone := (hFinished.drained hAll).2 rfl
      have hSame := hFinished.idle rfl
      subst hSame
      cases launched with
      | true =>
          rw [if_pos (Bool.or_true _), measure, measure,
            hLaunched.dirty, hSize, if_pos hNone,
            if_neg (hLaunched.busy rfl)]
          omega
      | false =>
          rcases hLaunched.idle rfl with ⟨rfl, hLast⟩
          rw [if_neg (by decide)]
          exact ⟨hEmpty, hLast hRoom⟩

/- The loop ends, and when it waited no pair is dirty. -/
theorem pumpPruneJobs_spec
    (waiting : Bool)
    (poll : Poll)
    (h : CpuCandidateHistory)
    (hInv : PruneInv batches rows h)
    (hWorkers : 0 < h.workerCount) :
    Triple (fun t => t = h) (pumpPruneJobs waiting poll)
      (fun _ t =>
        Pumped batches h t ∧ (waiting = true → Settled t))
      Never := by
  cases waiting with
  | false =>
      apply Triple.seq (pumpJobsOnce_spec poll h hInv hWorkers)
      intro any
      apply Triple.value
      intro t hPumped
      exact ⟨hPumped.1, fun hWaiting => nomatch hWaiting⟩
  | true =>
      rw [pumpPruneJobs, if_pos rfl]
      apply Triple.read
      rintro t rfl
      have hBody :
          ∀ u, Pumped batches t u →
            Triple (fun v => v = u)
              (do
                let progressed ← pumpJobsOnce waitAll
                pure !progressed)
              (fun done v =>
                if done then Pumped batches t v ∧ Settled v
                else Pumped batches t v ∧ measure v < measure u)
              Never := by
        intro u hPumped
        rcases hPumped.kept with ⟨rows', hKept⟩
        have hWorkers' : 0 < u.workerCount := by
          rw [hPumped.stable.1]
          exact hWorkers
        apply Triple.seq
          (pumpJobsOnce_spec waitAll u hKept hWorkers')
        intro any
        apply Triple.value
        rintro v ⟨hNext, hDone⟩
        have hAll := hDone allDone_waitAll
        have hAgain : Pumped batches t v :=
          ⟨hNext.kept, hPumped.stable.trans hNext.stable⟩
        cases any with
        | true => exact ⟨hAgain, hAll⟩
        | false => exact ⟨hAgain, hAll⟩
      have hLoop :
          Triple
            (fun u =>
              Pumped batches t u ∧
                measure u < 2 * 2 ^ t.size + 2)
            (repeatUntil Stop.outOfFuel (2 * 2 ^ t.size + 2) do
              let progressed ← pumpJobsOnce waitAll
              pure !progressed)
            (fun _ u => Pumped batches t u ∧ Settled u)
            Never :=
        Triple.repeatUntil_of_measure measure _ hBody
      apply hLoop.conseq
      · rintro u rfl
        exact ⟨⟨⟨rows, hInv⟩, Stable.refl u⟩, measure_lt u⟩
      · intro _ u hEnd
        exact ⟨hEnd.1, fun _ => hEnd.2⟩
      · exact fun _ _ hNever => hNever

end Async

end History

end BeamSearch
