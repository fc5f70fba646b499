import BeamSearch.Core.Errors
import BeamSearch.Lib.Word
import Mathlib.Order.Lattice

/-
  Where every history layer will be stored.

  The layer of a depth is bounded by the beam and by the moves
  that lead there. A plan reserves room for the bound of every
  layer, on disk while it fits and in memory otherwise. The
  native code and the planning crate each have a planner.

  Main declarations:
    * `planHistory`
    * `plan`
    * `planHistory_agrees`
-/

namespace BeamSearch

open Word

namespace History

/- The greatest 64-bit word. -/
def uint64Max : Nat :=
  2 ^ 64 - 1

/- Where a layer is planned. -/
inductive Location where
  | ram
  | disk
deriving DecidableEq, Repr

/- The native names of the fields add `entry` and `entries`. -/
structure Reservation where
  bound : Nat
  offset : Nat
  location : Location
deriving DecidableEq, Repr

----------------
-- The Native Planner
----------------

/- What the estimate of the source returns. -/
structure HistoryBudgetEstimate where
  effectiveDepth : Nat
  targetBeamDepth : Nat
  statesBeforeTargetBeam : Nat
  requiredEntries : Nat
deriving DecidableEq, Repr

/-
  The bound of the next layer. The quotient is compared first,
  so the product does not wrap.
-/
def expandBound
    (previous beam moves : Nat) :
    Checked Exception Nat := do
  let limit ← div beam moves
  if previous > limit then
    return beam
  else do
    let product ← mul 64 previous moves
    return min beam product

/- The loop over the depths, with what it has added up. -/
def budgetLoop
    (depths beam moves : Nat) :
    (todo depth bound statesBefore : Nat) →
    Checked Exception HistoryBudgetEstimate
  | 0, _, _, statesBefore =>
      pure
        { effectiveDepth := depths
          targetBeamDepth := depths
          statesBeforeTargetBeam := statesBefore
          requiredEntries := statesBefore }
  | todo + 1, depth, previous, statesBefore => do
      let bound ← expandBound previous beam moves
      let room ← sub uint64Max statesBefore
      if bound = beam then do
        let remaining ← sub depths depth
        let most ← div room beam
        if remaining > most then
          throwing
            (.overflowError
              "static hybrid history required entries overflow")
        else do
          let product ← mul 64 remaining beam
          let required ← add 64 statesBefore product
          pure
            { effectiveDepth := depths
              targetBeamDepth := depth
              statesBeforeTargetBeam := statesBefore
              requiredEntries := required }
      else if bound > room then
        throwing
          (.overflowError
            "static hybrid history prefull entries overflow")
      else do
        let states ← add 64 statesBefore bound
        budgetLoop depths beam moves todo (depth + 1) bound
          states

/- The native `estimate`. -/
def estimateHistoryBudget
    (depths beam moves : Nat) :
    Checked Exception HistoryBudgetEstimate :=
  if moves = 0 then
    throwing
      (.invalidArgument "history move count must be nonzero")
  else if depths = 0 ∨ beam = 0 then
    pure
      { effectiveDepth := depths
        targetBeamDepth := 0
        statesBeforeTargetBeam := 0
        requiredEntries := 0 }
  else
    budgetLoop depths beam moves depths 0 1 0

/- The plan of the C++ source. -/
structure HistoryPlan where
  depths : List Reservation
  requiredEntries : Nat
  ramReservedEntries : Nat
  diskReservedEntries : Nat
deriving DecidableEq, Repr

/-
  One layer after the other: on disk where there is room, else
  in RAM.
-/
def placeDepths
    (beam moves ramArena diskArena : Nat) :
    (todo depth bound : Nat) →
    HistoryPlan →
    Checked Exception HistoryPlan
  | 0, _, _, plan => return plan
  | todo + 1, depth, previous, plan => do
      let bound ← expandBound previous beam moves
      let diskFree ← sub diskArena plan.diskReservedEntries
      if bound ≤ diskFree then do
        let reserved ← add 64 plan.diskReservedEntries bound
        placeDepths beam moves ramArena diskArena todo
          (depth + 1) bound
          { plan with
            depths :=
              plan.depths ++
                [⟨bound, plan.diskReservedEntries, .disk⟩]
            diskReservedEntries := reserved }
      else do
        let ramFree ← sub ramArena plan.ramReservedEntries
        if bound ≤ ramFree then do
          let reserved ← add 64 plan.ramReservedEntries bound
          placeDepths beam moves ramArena diskArena todo
            (depth + 1) bound
            { plan with
              depths :=
                plan.depths ++
                  [⟨bound, plan.ramReservedEntries, .ram⟩]
              ramReservedEntries := reserved }
        else
          throwing
            (.runtimeError
              ("static hybrid history cannot place whole depth="
                ++ toString depth ++ " entries="
                ++ toString bound))

/- Two capacities are compared one after the other, not added. -/
def exceedsArenas
    (required ramArena diskArena : Nat) :
    Checked Exception Bool :=
  if required > ramArena then do
    let rest ← sub required ramArena
    return decide (rest > diskArena)
  else
    return false

/- The estimate is checked before any layer is placed. -/
def planHistory
    (expansionDepths localBeam moveCount ramArena
      diskArena : Nat) :
    Checked Exception HistoryPlan := do
  let estimate ←
    estimateHistoryBudget expansionDepths localBeam moveCount
  let required := estimate.requiredEntries
  let tooSmall ← exceedsArenas required ramArena diskArena
  if tooSmall then
    throwing
      (.runtimeError
        "static hybrid history total budget too small")
  else
    placeDepths localBeam moveCount ramArena diskArena
      expansionDepths 0 (if localBeam = 0 then 0 else 1)
      { depths := []
        requiredEntries := required
        ramReservedEntries := 0
        diskReservedEntries := 0 }

----------------
-- The Planner Of The Crate
----------------

/- The contracts throw nothing else. -/
def fromContract
    {α : Type}
    (result : Except ContractError α) :
    Checked ContractError α :=
  match result with
  | .ok a => .ok a
  | .error error => throwing error

/- The estimate of the Rust source. -/
structure Estimate where
  requiredEntries : Nat
  targetBeamDepth : Nat
  statesBeforeTargetBeam : Nat
deriving DecidableEq, Repr

/- The same bound in Rust, where an overflow is a panic. -/
def expand
    (previous beam moves : Nat) :
    Checked ContractError Nat := do
  let limit ← div beam moves
  if previous > limit then
    return beam
  else do
    let product ← mul 64 previous moves
    return min beam product

/- The sum stays at the greatest word. -/
def saturatingAdd (a b : Nat) : Nat :=
  min (a + b) uint64Max

/- The loop over the depths. -/
def estimateLoop
    (depths beam moves : Nat) :
    (todo depth bound statesBefore : Nat) →
    Checked ContractError Estimate
  | 0, _, _, statesBefore =>
      pure
        { requiredEntries := statesBefore
          targetBeamDepth := depths
          statesBeforeTargetBeam := statesBefore }
  | todo + 1, depth, previous, statesBefore => do
      let bound ← expand previous beam moves
      if bound = beam then do
        let remaining ← sub depths depth
        let required ←
          okOr
            (.thrown (.overflow "history required entries"))
            ((checkedMul remaining beam).bind
              fun v => checkedAdd v statesBefore)
        pure
          { requiredEntries := required
            targetBeamDepth := depth
            statesBeforeTargetBeam := statesBefore }
      else do
        let states ←
          okOr
            (.thrown (.overflow "history prefull entries"))
            (checkedAdd statesBefore bound)
        estimateLoop depths beam moves todo (depth + 1) bound
          states

/- The estimate, with its two early returns. -/
def estimate
    (depths beam moves : Nat) :
    Checked ContractError Estimate :=
  if moves = 0 then
    throwing (.invalid "history move count")
  else if depths = 0 ∨ beam = 0 then
    pure
      { requiredEntries := 0
        targetBeamDepth := 0
        statesBeforeTargetBeam := 0 }
  else if moves = 1 ∧ beam > 1 then
    pure
      { requiredEntries := depths
        targetBeamDepth := depths
        statesBeforeTargetBeam := depths }
  else
    estimateLoop depths beam moves depths 0 1 0

/-
  The plan of the Rust source, with the RAM that is left for
  the fallback.
-/
structure Plan where
  depths : List Reservation
  required : Nat
  ramReserved : Nat
  diskReserved : Nat
  ramCapacity : Nat
  fallbackEnd : Nat
deriving DecidableEq, Repr

/- The reservation of a layer, checked against its bound. -/
def Plan.reservation
    (plan : Plan)
    (depth actual : Nat) :
    Except ContractError Reservation :=
  match plan.depths[depth]? with
  | none => .error (.invalid "history depth")
  | some r => do
      requireCapacity "history layer" actual r.bound
      return r

/-
  A layer that the disk refused goes behind the planned ones
  in RAM.
-/
def Plan.reserveFallback
    (plan : Plan)
    (count : Nat) :
    Except ContractError (Nat × Plan) :=
  match checkedAdd plan.fallbackEnd count with
  | none => .error (.overflow "history fallback")
  | some required => do
      requireCapacity "history RAM fallback" required
        plan.ramCapacity
      pure
        (plan.fallbackEnd, { plan with fallbackEnd := required })

/- One layer after the other. -/
def placeLayers
    (beam moves ram disk : Nat) :
    (todo bound : Nat) →
    Plan →
    Checked ContractError Plan
  | 0, _, p => return p
  | todo + 1, previous, p => do
      let bound ← expand previous beam moves
      let diskFree ← sub disk p.diskReserved
      if bound ≤ diskFree then do
        let reserved ← add 64 p.diskReserved bound
        placeLayers beam moves ram disk todo bound
          { p with
            depths := p.depths ++ [⟨bound, p.diskReserved, .disk⟩]
            diskReserved := reserved }
      else do
        let ramFree ← sub ram p.ramReserved
        if bound ≤ ramFree then do
          let reserved ← add 64 p.ramReserved bound
          placeLayers beam moves ram disk todo bound
            { p with
              depths := p.depths ++ [⟨bound, p.ramReserved, .ram⟩]
              ramReserved := reserved }
        else
          throwing
            (.capacity "history whole layer" bound
              (max ramFree diskFree))

/- The plan, or the contract that is broken. -/
def plan
    (depths beam moves ram disk : Nat) :
    Checked ContractError Plan := do
  let budget ← estimate depths beam moves
  let required := budget.requiredEntries
  fromContract
    (requireCapacity "history total entries" required
      (saturatingAdd ram disk))
  let p ←
    placeLayers beam moves ram disk depths
      (if beam = 0 then 0 else 1)
      { depths := []
        required := required
        ramReserved := 0
        diskReserved := 0
        ramCapacity := ram
        fallbackEnd := 0 }
  return { p with fallbackEnd := p.ramReserved }

----------------
-- Bounds Of A Layer
----------------

/- Past the limit the product is above the beam. -/
theorem min_eq_of_limit_lt
    {previous beam moves : Nat}
    (hMoves : 0 < moves)
    (hLimit : beam / moves < previous) :
    min beam (previous * moves) = beam :=
  min_eq_left
    (Nat.le_of_lt ((Nat.div_lt_iff_lt_mul hMoves).mp hLimit))

/- The quotient's test keeps the product a word. -/
theorem mul_lt_of_le_limit
    {previous beam moves : Nat}
    (hMoves : 0 < moves)
    (hBeam : beam < 2 ^ 64)
    (hLimit : ¬ beam / moves < previous) :
    previous * moves < 2 ^ 64 :=
  lt_of_le_of_lt
    ((Nat.le_div_iff_mul_le hMoves).mp (Nat.le_of_not_lt hLimit))
    hBeam

/- The bound of the C++ source, without its test. -/
theorem expandBound_eq
    {beam moves : Nat}
    (previous : Nat)
    (hMoves : 0 < moves)
    (hBeam : beam < 2 ^ 64) :
    expandBound previous beam moves =
      .ok (min beam (previous * moves)) := by
  rw [expandBound, div_eq hMoves, ok_bind]
  split_ifs with hLimit
  · rw [min_eq_of_limit_lt hMoves hLimit, pure_eq]
  · rw [mul_eq (mul_lt_of_le_limit hMoves hBeam hLimit),
      ok_bind, pure_eq]

/- The bound of the Rust source, without its test. -/
theorem expand_eq
    {beam moves : Nat}
    (previous : Nat)
    (hMoves : 0 < moves)
    (hBeam : beam < 2 ^ 64) :
    expand previous beam moves =
      .ok (min beam (previous * moves)) := by
  rw [expand, div_eq hMoves, ok_bind]
  split_ifs with hLimit
  · rw [min_eq_of_limit_lt hMoves hLimit, pure_eq]
  · rw [mul_eq (mul_lt_of_le_limit hMoves hBeam hLimit),
      ok_bind, pure_eq]

----------------
-- The Estimates
----------------

/- The same entries, and they fit a word. -/
def SameEntries
    (native : HistoryBudgetEstimate)
    (crate : Estimate) : Prop :=
  native.requiredEntries = crate.requiredEntries ∧
    crate.requiredEntries < 2 ^ 64

/- The full layers that remain, guarded by a division or checked. -/
theorem fullLayers_agree
    {beam remaining statesBefore : Nat}
    (depths depth : Nat)
    (hBeam : 0 < beam)
    (hStates : statesBefore < 2 ^ 64) :
    Agree SameEntries
      (do
        let most ← div (uint64Max - statesBefore) beam
        if remaining > most then
          throwing
            (.overflowError
              "static hybrid history required entries overflow")
        else do
          let product ← mul 64 remaining beam
          let required ← add 64 statesBefore product
          pure
            { effectiveDepth := depths
              targetBeamDepth := depth
              statesBeforeTargetBeam := statesBefore
              requiredEntries := required } :
        Checked Exception HistoryBudgetEstimate)
      (do
        let required ←
          okOr
            (.thrown (.overflow "history required entries"))
            ((checkedMul remaining beam).bind
              fun v => checkedAdd v statesBefore)
        pure
          { requiredEntries := required
            targetBeamDepth := depth
            statesBeforeTargetBeam := statesBefore } :
        Checked ContractError Estimate) := by
  have hMax : uint64Max = 2 ^ 64 - 1 := rfl
  rw [div_eq hBeam, ok_bind]
  by_cases hOver :
      remaining > (uint64Max - statesBefore) / beam
  · have hProduct :=
      (Nat.div_lt_iff_lt_mul hBeam).mp hOver
    have hNone :
        ((checkedMul remaining beam).bind
            fun v => checkedAdd v statesBefore) = none := by
      rw [checkedMul]
      split_ifs
      · rw [Option.bind_some, checkedAdd, if_neg (by omega)]
      · rfl
    rw [if_pos hOver, hNone]
    exact Agree.throw _ _
  · have hProduct := mt (Nat.div_lt_iff_lt_mul hBeam).mpr hOver
    rw [if_neg hOver, mul_eq (by omega), ok_bind,
      add_eq (by omega), ok_bind, checkedMul,
      if_pos (by omega), Option.bind_some, checkedAdd,
      if_pos (by omega), okOr, ok_bind]
    exact Agree.ok
      ⟨Nat.add_comm _ _, by dsimp only; omega⟩

/- Both loops agree, depth by depth. -/
theorem budgetLoop_agrees
    {depths beam moves : Nat}
    (hMoves : 0 < moves)
    (hBeam : 0 < beam)
    (hBeamFits : beam < 2 ^ 64) :
    ∀ (todo depth bound statesBefore : Nat),
      depth + todo = depths →
      statesBefore < 2 ^ 64 →
      Agree SameEntries
        (budgetLoop depths beam moves todo depth bound
          statesBefore)
        (estimateLoop depths beam moves todo depth bound
          statesBefore) := by
  have hMax : uint64Max = 2 ^ 64 - 1 := rfl
  intro todo
  induction todo with
  | zero =>
      intro depth bound statesBefore _ hStates
      exact Agree.ok ⟨rfl, hStates⟩
  | succ todo ih =>
      intro depth bound statesBefore hDepth hStates
      rw [budgetLoop, estimateLoop,
        expandBound_eq bound hMoves hBeamFits,
        expand_eq bound hMoves hBeamFits, ok_bind, ok_bind,
        sub_eq (by omega), ok_bind]
      by_cases hFull : min beam (bound * moves) = beam
      · rw [if_pos hFull, if_pos hFull, sub_eq (by omega),
          sub_eq (by omega), ok_bind, ok_bind]
        exact fullLayers_agree depths depth hBeam hStates
      · rw [if_neg hFull, if_neg hFull, checkedAdd]
        by_cases hOver :
            min beam (bound * moves) > uint64Max - statesBefore
        · rw [if_pos hOver, if_neg (by omega)]
          exact Agree.throw _ _
        · rw [if_neg hOver, if_pos (by omega),
            add_eq (by omega), okOr, ok_bind, ok_bind]
          exact ih _ _ _ (by omega) (by omega)

/- With one move every layer below the beam holds one entry. -/
theorem budgetLoop_one_move
    {beam : Nat}
    (depths : Nat)
    (hBeam : 1 < beam)
    (hBeamFits : beam < 2 ^ 64) :
    ∀ (todo depth statesBefore : Nat),
      statesBefore + todo < 2 ^ 64 →
      budgetLoop depths beam 1 todo depth 1 statesBefore =
        .ok
          { effectiveDepth := depths
            targetBeamDepth := depths
            statesBeforeTargetBeam := statesBefore + todo
            requiredEntries := statesBefore + todo } := by
  have hMax : uint64Max = 2 ^ 64 - 1 := rfl
  intro todo
  induction todo with
  | zero => exact fun _ _ _ => rfl
  | succ todo ih =>
      intro depth statesBefore hStates
      have hBound : min beam (1 * 1) = 1 :=
        min_eq_right (Nat.le_of_lt hBeam)
      rw [budgetLoop, expandBound_eq 1 (by decide) hBeamFits,
        ok_bind, hBound, sub_eq (by omega), ok_bind,
        if_neg (Nat.ne_of_lt hBeam), if_neg (by omega),
        add_eq (by omega), ok_bind, ih _ _ (by omega),
        Nat.add_right_comm]
      rfl

/- Both estimates agree. -/
theorem estimateHistoryBudget_agrees
    {depths beam : Nat}
    (moves : Nat)
    (hDepths : depths < 2 ^ 32)
    (hBeam : beam < 2 ^ 64) :
    Agree
      (fun native crate =>
        0 < moves ∧ SameEntries native crate)
      (estimateHistoryBudget depths beam moves)
      (estimate depths beam moves) := by
  rw [estimateHistoryBudget, estimate]
  by_cases hMoves : moves = 0
  · rw [if_pos hMoves, if_pos hMoves]
    exact Agree.throw _ _
  have hPos : 0 < moves := Nat.pos_of_ne_zero hMoves
  rw [if_neg hMoves, if_neg hMoves]
  by_cases hEmpty : depths = 0 ∨ beam = 0
  · rw [if_pos hEmpty, if_pos hEmpty]
    exact Agree.ok ⟨hPos, rfl, Nat.two_pow_pos 64⟩
  rw [if_neg hEmpty, if_neg hEmpty]
  by_cases hSingle : moves = 1 ∧ beam > 1
  · rw [if_pos hSingle, hSingle.1,
      budgetLoop_one_move depths hSingle.2 hBeam depths 0 0
        (by omega), Nat.zero_add]
    exact Agree.ok ⟨Nat.one_pos, rfl, by dsimp only; omega⟩
  · rw [if_neg hSingle]
    exact
      (budgetLoop_agrees hPos (by omega) hBeam depths 0 1 0
        (Nat.zero_add _) (Nat.two_pow_pos 64)).mono
        fun _ _ hSame => ⟨hPos, hSame⟩

----------------
-- Placements
----------------

/- The same layers, and no arena is overdrawn. -/
structure SamePlan
    (ram disk : Nat)
    (native : HistoryPlan)
    (crate : Plan) : Prop where
  depths : native.depths = crate.depths
  required : native.requiredEntries = crate.required
  ramReserved :
    native.ramReservedEntries = crate.ramReserved
  diskReserved :
    native.diskReservedEntries = crate.diskReserved
  ramFits : crate.ramReserved ≤ ram
  diskFits : crate.diskReserved ≤ disk

/- Both placements agree, layer by layer. -/
theorem placeDepths_agrees
    {beam moves ram disk : Nat}
    (hMoves : 0 < moves)
    (hBeam : beam < 2 ^ 64)
    (hRam : ram < 2 ^ 64)
    (hDisk : disk < 2 ^ 64) :
    ∀ (todo depth bound : Nat) (native : HistoryPlan)
      (crate : Plan),
      SamePlan ram disk native crate →
      Agree (SamePlan ram disk)
        (placeDepths beam moves ram disk todo depth bound
          native)
        (placeLayers beam moves ram disk todo bound crate) := by
  intro todo
  induction todo with
  | zero =>
      intro depth bound native crate hSame
      exact Agree.ok hSame
  | succ todo ih =>
      intro depth bound native crate hSame
      have hRamFits := hSame.ramFits
      have hDiskFits := hSame.diskFits
      rw [placeDepths, placeLayers,
        expandBound_eq bound hMoves hBeam,
        expand_eq bound hMoves hBeam, ok_bind, ok_bind,
        hSame.diskReserved, hSame.ramReserved, hSame.depths,
        sub_eq hDiskFits, sub_eq hDiskFits, ok_bind, ok_bind,
        sub_eq hRamFits, sub_eq hRamFits, ok_bind, ok_bind]
      by_cases hOnDisk :
          min beam (bound * moves) ≤ disk - crate.diskReserved
      · rw [if_pos hOnDisk, if_pos hOnDisk, add_eq (by omega),
          add_eq (by omega), ok_bind, ok_bind]
        apply ih
        exact
          { hSame with
            depths := rfl
            ramReserved := rfl
            diskReserved := rfl
            diskFits := by dsimp only; omega }
      rw [if_neg hOnDisk, if_neg hOnDisk]
      by_cases hInRam :
          min beam (bound * moves) ≤ ram - crate.ramReserved
      · rw [if_pos hInRam, if_pos hInRam, add_eq (by omega),
          add_eq (by omega), ok_bind, ok_bind]
        apply ih
        exact
          { hSame with
            depths := rfl
            ramReserved := rfl
            diskReserved := rfl
            ramFits := by dsimp only; omega }
      · rw [if_neg hInRam, if_neg hInRam]
        exact Agree.throw _ _

/- Two comparisons against a saturated sum. -/
theorem exceedsArenas_eq
    {required : Nat}
    (ram disk : Nat)
    (hRequired : required < 2 ^ 64) :
    exceedsArenas required ram disk =
      .ok (decide (required > saturatingAdd ram disk)) := by
  have hMax : uint64Max = 2 ^ 64 - 1 := rfl
  rw [exceedsArenas, saturatingAdd]
  split_ifs with hOver
  · rw [sub_eq (Nat.le_of_lt hOver), ok_bind, pure_eq]
    congr 2
    rw [eq_iff_iff]
    omega
  · rw [pure_eq]
    congr 1
    rw [eq_comm, decide_eq_false_iff_not]
    omega

/-
  For all words the two planners make the same plan, or both
  refuse; no operation of either wraps or divides by zero.
-/
theorem planHistory_agrees
    (depths moves : UInt32)
    (beam ram disk : UInt64) :
    (∃ (native : HistoryPlan) (crate : Plan),
      planHistory depths.toNat beam.toNat moves.toNat
          ram.toNat disk.toNat =
        .ok native ∧
      plan depths.toNat beam.toNat moves.toNat ram.toNat
          disk.toNat =
        .ok crate ∧
      native.requiredEntries = crate.required ∧
      native.ramReservedEntries = crate.ramReserved ∧
      native.diskReservedEntries = crate.diskReserved ∧
      native.depths = crate.depths) ∨
    ∃ (exception : Exception) (error : ContractError),
      planHistory depths.toNat beam.toNat moves.toNat
          ram.toNat disk.toNat =
        .error (.thrown exception) ∧
      plan depths.toNat beam.toNat moves.toNat ram.toNat
          disk.toNat =
        .error (.thrown error) := by
  have hAgree :
      Agree
        (fun (native : HistoryPlan) (crate : Plan) =>
          native.requiredEntries = crate.required ∧
          native.ramReservedEntries = crate.ramReserved ∧
          native.diskReservedEntries = crate.diskReserved ∧
          native.depths = crate.depths)
        (planHistory depths.toNat beam.toNat moves.toNat
          ram.toNat disk.toNat)
        (plan depths.toNat beam.toNat moves.toNat ram.toNat
          disk.toNat) := by
    rw [planHistory, plan]
    refine
      (estimateHistoryBudget_agrees moves.toNat depths.toNat_lt
        beam.toNat_lt).bind ?_
    rintro native crate ⟨hMoves, hEntries, hFits⟩
    dsimp only
    rw [hEntries, exceedsArenas_eq _ _ hFits, ok_bind,
      requireCapacity]
    by_cases hSmall :
        crate.requiredEntries >
          saturatingAdd ram.toNat disk.toNat
    · rw [if_pos hSmall, if_pos (decide_eq_true hSmall)]
      exact Agree.throw _ _
    rw [if_neg hSmall, if_neg (by simpa using hSmall),
      fromContract, ok_bind, ← bind_pure (placeDepths ..)]
    refine
      (placeDepths_agrees hMoves beam.toNat_lt ram.toNat_lt
        disk.toNat_lt _ _ _ _ _
        ⟨rfl, rfl, rfl, rfl, Nat.zero_le _,
          Nat.zero_le _⟩).bind ?_
    intro native' crate' hSame
    exact Agree.ok
      ⟨hSame.required, hSame.ramReserved, hSame.diskReserved,
        hSame.depths⟩
  rcases hAgree with
    ⟨native, crate, hNative, hCrate, hSame⟩ | hThrow
  · exact Or.inl ⟨native, crate, hNative, hCrate, hSame⟩
  · exact Or.inr hThrow

end History

end BeamSearch
