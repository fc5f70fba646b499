import BeamSearch.Stream4.Oracle
import Mathlib.Logic.Function.Basic

/-
  Arrivals and Stream 4 passes on the two banks of one shard.

  Batches are appended to the dirty part of either physical
  bank; a pass replaces the clean and dirty rows of one bank by
  the oracle's output for the threshold current at that pass.
  Every bank stays a reduction of the batches sent to it, so
  the final union does not depend on the schedule.

  Main declarations:
    * `ShardEvent`
    * `run_reducesTo`
    * `finalUnion_schedule_independent`
-/

namespace BeamSearch

open KeyedMin

namespace Schedule

----------------
-- Banks And Events
----------------

/- The two banks of a shard. -/
inductive PhysicalBank where
  | a
  | b
deriving DecidableEq, Repr

/- The rows of a bank, sorted and new. -/
structure BankRows where
  clean : List CandidateMeta
  dirty : List CandidateMeta
deriving DecidableEq, Repr

/- All rows of a bank. -/
def BankRows.contents (rows : BankRows) : List CandidateMeta :=
  rows.clean ++ rows.dirty

/- Both banks of a shard. -/
abbrev BankPair :=
  PhysicalBank → BankRows

/- Two empty banks. -/
def emptyPair : BankPair :=
  fun _ => { clean := [], dirty := [] }

/- Rows arrive at a bank, or it is sorted. -/
inductive ShardEvent where
  | arrive (bank : PhysicalBank) (batch : List CandidateMeta)
  | pass (bank : PhysicalBank) (threshold : UInt32)
deriving DecidableEq, Repr

/- New rows come behind the others. -/
def arriveRows
    (batch : List CandidateMeta)
    (rows : BankRows) : BankRows :=
  { rows with dirty := rows.dirty ++ batch }

/- A pass leaves sorted rows only. -/
def passRows
    (threshold : UInt32)
    (rows : BankRows) : BankRows :=
  { clean := stream4ThresholdSortDedup rows.contents threshold
    dirty := [] }

/- One event changes one bank. -/
def step (pair : BankPair) : ShardEvent → BankPair
  | .arrive bank batch =>
      Function.update pair bank (arriveRows batch (pair bank))
  | .pass bank threshold =>
      Function.update pair bank (passRows threshold (pair bank))

/- The banks after all events. -/
def run (events : List ShardEvent) : BankPair :=
  events.foldl step emptyPair

----------------
-- What A Schedule Sends Where
----------------

/- What arrives with an event. -/
def ShardEvent.batch : ShardEvent → List CandidateMeta
  | .arrive _ batch => batch
  | .pass _ _ => []

/- What arrives at one bank with it. -/
def ShardEvent.batchTo
    (bank : PhysicalBank) : ShardEvent → List CandidateMeta
  | .arrive target batch => if target = bank then batch else []
  | .pass _ _ => []

/- The threshold of a pass. -/
def ShardEvent.threshold? : ShardEvent → Option UInt32
  | .arrive _ _ => none
  | .pass _ threshold => some threshold

/- The candidates of all arrival batches, in arrival order. -/
def arrivals (events : List ShardEvent) : List CandidateMeta :=
  events.flatMap ShardEvent.batch

/- All that arrives at a bank. -/
def arrivalsTo
    (bank : PhysicalBank)
    (events : List ShardEvent) : List CandidateMeta :=
  events.flatMap (ShardEvent.batchTo bank)

/- The thresholds current at the passes of a schedule. -/
def passThresholds (events : List ShardEvent) : List UInt32 :=
  events.filterMap ShardEvent.threshold?

theorem mem_arrivals_iff
    (events : List ShardEvent)
    (c : CandidateMeta) :
    c ∈ arrivalsTo .a events ++ arrivalsTo .b events ↔
      c ∈ arrivals events := by
  rw [List.mem_append]
  unfold arrivalsTo arrivals
  rw [List.mem_flatMap, List.mem_flatMap, List.mem_flatMap]
  constructor
  · intro hMem
    rcases hMem with ⟨event, hEvent, hRow⟩ | ⟨event, hEvent, hRow⟩
    all_goals
      refine ⟨event, hEvent, ?_⟩
      cases event with
      | arrive bank batch =>
          simp only [ShardEvent.batchTo] at hRow
          split at hRow
          · exact hRow
          · exact absurd hRow List.not_mem_nil
      | pass bank threshold => exact hRow
  · intro hMem
    rcases hMem with ⟨event, hEvent, hRow⟩
    cases event with
    | arrive bank batch =>
        cases bank with
        | a => exact Or.inl ⟨_, hEvent, hRow⟩
        | b => exact Or.inr ⟨_, hEvent, hRow⟩
    | pass bank threshold =>
        exact absurd hRow List.not_mem_nil

----------------
-- The Reduction Kept By Every Step
----------------

variable {final : UInt32}

theorem arriveRows_reducesTo
    {rows : BankRows}
    {sent batch : List CandidateMeta}
    (hRows : ReducesTo final rows.contents sent) :
    ReducesTo final (arriveRows batch rows).contents
      (sent ++ batch) := by
  have hContents :
      (arriveRows batch rows).contents =
        rows.contents ++ batch :=
    (List.append_assoc _ _ _).symm
  rw [hContents]
  exact hRows.append (Reduces.refl batch)

theorem passRows_reducesTo
    {rows : BankRows}
    {sent : List CandidateMeta}
    {threshold : UInt32}
    (hThreshold : final ≤ threshold)
    (hRows : ReducesTo final rows.contents sent) :
    ReducesTo final (passRows threshold rows).contents sent := by
  have hContents :
      (passRows threshold rows).contents =
        stream4ThresholdSortDedup rows.contents threshold :=
    List.append_nil _
  rw [hContents]
  exact
    (stream4ThresholdSortDedup_reducesTo
      rows.contents hThreshold).trans
        (within_downClosed final) hRows

/-
  One event keeps every bank a reduction of what was sent to
  it, as long as a pass drops nothing below the final threshold.
-/
theorem step_reducesTo
    {pair : BankPair}
    {event : ShardEvent}
    {bank : PhysicalBank}
    {sent : List CandidateMeta}
    (hThreshold : ∀ t ∈ event.threshold?, final ≤ t)
    (hPair : ReducesTo final (pair bank).contents sent) :
    ReducesTo final (step pair event bank).contents
      (sent ++ event.batchTo bank) := by
  cases event with
  | arrive target batch =>
      by_cases hTarget : target = bank
      · subst hTarget
        simpa [step, ShardEvent.batchTo] using
          arriveRows_reducesTo hPair
      · have hOther : bank ≠ target := fun hEq => hTarget hEq.symm
        simpa [step, ShardEvent.batchTo, hTarget, hOther] using
          hPair
  | pass target threshold =>
      have hFinal : final ≤ threshold :=
        hThreshold threshold rfl
      by_cases hTarget : bank = target
      · subst hTarget
        simpa [step, ShardEvent.batchTo] using
          passRows_reducesTo hFinal hPair
      · simpa [step, ShardEvent.batchTo, hTarget] using hPair

/- Along a whole schedule every bank reduces the batches sent to it. -/
theorem run_reducesTo
    (events : List ShardEvent)
    (hThresholds : ∀ t ∈ passThresholds events, final ≤ t)
    (bank : PhysicalBank) :
    ReducesTo final (run events bank).contents
      (arrivalsTo bank events) := by
  induction events using List.reverseRecOn with
  | nil => exact Reduces.refl []
  | append_singleton events event ih =>
      have hInit :
          ∀ t ∈ passThresholds events, final ≤ t := by
        intro t hMem
        apply hThresholds
        simp only [passThresholds, List.filterMap_append]
        exact List.mem_append_left _ hMem
      have hLast : ∀ t ∈ event.threshold?, final ≤ t := by
        intro t hMem
        apply hThresholds
        simp only [passThresholds, List.filterMap_append]
        apply List.mem_append_right
        exact List.mem_filterMap.mpr
          ⟨event, List.mem_singleton_self event, hMem⟩
      have hStep := step_reducesTo hLast (ih hInit)
      simpa [run, arrivalsTo] using hStep

/-
  Threshold and deduplication do not depend on the schedule:
  the union of both banks at the end is the one computed from
  all candidates at once, and its rows are the best of their
  hashes.
-/
theorem finalUnion_schedule_independent
    (candidates : List CandidateMeta)
    (events : List ShardEvent)
    (final : UInt32)
    (hSplit : (arrivals events).Perm candidates)
    (hThresholds : ∀ t ∈ passThresholds events, final ≤ t) :
    stream4ThresholdSortDedup
        ((run events .a).contents ++ (run events .b).contents)
        final =
      stream4ThresholdSortDedup candidates final ∧
    (∀ h,
      (∃ c ∈ stream4ThresholdSortDedup candidates final,
          c.hash = h) ↔
        ∃ c ∈ candidates, c.scoreKey ≤ final ∧ c.hash = h) ∧
    (∀ c,
      c ∈ stream4ThresholdSortDedup candidates final ↔
        c ∈ candidates ∧ c.scoreKey ≤ final ∧
          ∀ d ∈ candidates, d.hash = c.hash →
            candidateBetter d c = false) := by
  refine ⟨?_, ?_, ?_⟩
  · have hBanks :
        ReducesTo final
          ((run events .a).contents ++
            (run events .b).contents)
          (arrivalsTo .a events ++ arrivalsTo .b events) :=
      (run_reducesTo events hThresholds .a).append
        (run_reducesTo events hThresholds .b)
    have hArrived :
        ReducesTo final
          (arrivalsTo .a events ++ arrivalsTo .b events)
          candidates :=
      Reduces.of_mem_iff fun c =>
        (mem_arrivals_iff events c).trans hSplit.mem_iff
    exact stream4ThresholdSortDedup_eq_of_reducesTo
      (hBanks.trans (within_downClosed final) hArrived)
  · exact exists_hash_mem_stream4ThresholdSortDedup_iff
      candidates final
  · intro c
    rw [mem_stream4ThresholdSortDedup_iff]
    simp only [IsBest, IsWinner, Within, Bool.eq_false_iff,
      ne_eq, candidateBetter_iff, not_lt]

/- Two banks share a hash; the better row arrives after a pass. -/
theorem finalUnion_schedule_independent_twoBanks :
    let early : CandidateMeta := ⟨⟨1, 2⟩, 5, 10, 3⟩
    let late : CandidateMeta := ⟨⟨1, 2⟩, 4, 10, 4⟩
    let other : CandidateMeta := ⟨⟨3, 2⟩, 6, 9, 5⟩
    let events : List ShardEvent :=
      [.arrive .a [early, other], .pass .a 20,
        .arrive .b [late], .pass .b 10]
    stream4ThresholdSortDedup
        ((run events .a).contents ++ (run events .b).contents)
        10 = [late, other] := by
  intro early late other events
  have hThresholds : ∀ t ∈ passThresholds events, 10 ≤ t :=
    List.forall_mem_cons.mpr
      ⟨by decide, List.forall_mem_singleton.mpr (by decide)⟩
  have hIndependent :=
    finalUnion_schedule_independent
      [early, other, late] events 10 (by decide) hThresholds
  exact hIndependent.1.trans (by decide)

end Schedule

end BeamSearch
