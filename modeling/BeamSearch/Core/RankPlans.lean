import BeamSearch.Core.Errors

/-
  The plans of all ranks and what makes them one admission.

  A rank's plan names the beam, the geometry and the memory it
  was admitted with. The plans of a world agree on everything
  but the rank and its memory.

  Main declarations:
    * `RankPlan`
    * `validateRankPlans`
-/

namespace BeamSearch

/-
  The fields of a rank's plan that the ranks are compared by.
-/
structure RankPlan where
  globalBeamWidth : Nat
  beamAlignment : Nat
  shards : Nat
  outerBatch : Nat
  world : Nat
  batchAlignment : Nat
  rank : Option Nat
  requiredBytes : Nat
  budgetBytes : Nat
deriving DecidableEq, Repr

/- The part of a plan on which all ranks agree. -/
def RankPlan.common
    (plan : RankPlan) :
    Nat × Nat × Nat × Nat × Nat × Nat :=
  (plan.globalBeamWidth, plan.beamAlignment, plan.shards,
    plan.outerBatch, plan.world, plan.batchAlignment)

/- Each row agrees with the first, names a new rank, and fits. -/
def validateRows
    (first : RankPlan)
    (ranksPresent : Bool) :
    List Nat → List RankPlan → Except ContractError Unit
  | _, [] => .ok ()
  | seen, row :: rows => do
      let newRank :=
        row.rank.any fun rank =>
          decide (rank < first.world) && !seen.contains rank
      if row.common ≠ first.common then
        .error (.invalid "rank plans disagree on protocol")
      else if ranksPresent && !newRank then
        .error
          (.invalid
            "duplicate or missing communicator rank admission")
      else do
        requireCapacity "rank GPU memory" row.requiredBytes
          row.budgetBytes
        validateRows first ranksPresent
          (row.rank.toList ++ seen) rows

/-
  The ranks agree with the first, the first has what was asked
  for, and each rank is there once.
-/
def validateRankPlans
    (plans : List RankPlan)
    (requested : Nat) : Except ContractError Unit :=
  match plans with
  | [] => .error (.invalid "no rank plans")
  | first :: _ =>
      if requested = 0 ∨ first.globalBeamWidth ≠ requested then
        .error (.invalid "exact requested frontier")
      else if first.world = 0 ∨ first.world ≠ plans.length then
        .error (.invalid "missing rank admission")
      else if first.beamAlignment = 0 ∨ first.shards = 0 ∨
          first.outerBatch = 0 ∨ first.batchAlignment = 0 then
        .error (.invalid "zero plan geometry")
      else
        validateRows first (plans.any fun p => p.rank.isSome) []
          plans

end BeamSearch
