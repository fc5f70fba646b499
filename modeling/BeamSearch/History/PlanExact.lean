import BeamSearch.History.StaticHybrid

/-
  A plan that is made is exact.

  The layer of depth `d` holds at most `min beam (moves^(d+1))`
  entries. The estimate stops at the depth where the beam is
  reached, the placement walks every depth. Both follow the same
  closed form, so that the bounds sum to the estimate.

  Main declarations:
    * `layerBound`
    * `Plan.Exact`
    * `plan_exact`
-/

namespace BeamSearch

open Word

namespace History

----------------
-- The Closed Form
----------------

/- The entries of one layer. -/
def layerBound (beam moves depth : Nat) : Nat :=
  min beam (moves ^ (depth + 1))

/- The entries of all layers before a depth. -/
def layersBefore (beam moves depth : Nat) : Nat :=
  ((List.range depth).map (layerBound beam moves)).sum

/- One layer more. -/
theorem layersBefore_succ (beam moves depth : Nat) :
    layersBefore beam moves (depth + 1) =
      layersBefore beam moves depth +
        layerBound beam moves depth := by
  unfold layersBefore
  rw [List.range_succ, List.map_append, List.sum_append]
  rfl

/- A layer is the layer before it, expanded up to the beam. -/
theorem min_mul_eq_layerBound
    {moves : Nat}
    (beam depth : Nat)
    (hMoves : 0 < moves) :
    min beam (min beam (moves ^ depth) * moves) =
      layerBound beam moves depth := by
  have hBeam : beam ≤ beam * moves :=
    Nat.le_mul_of_pos_right _ hMoves
  unfold layerBound
  rw [Nat.pow_succ, ← Nat.mul_min_mul_right, ← min_assoc,
    min_eq_left hBeam]

/- One bound from the power before it. -/
theorem expand_power
    {beam moves : Nat}
    (depth : Nat)
    (hMoves : 0 < moves)
    (hBeam : beam < 2 ^ 64) :
    expand (min beam (moves ^ depth)) beam moves =
      .ok (layerBound beam moves depth) := by
  rw [expand_eq _ hMoves hBeam,
    min_mul_eq_layerBound beam depth hMoves]

/- Once the beam is reached, every layer is full. -/
theorem layerBound_full
    {beam moves depth later : Nat}
    (hMoves : 0 < moves)
    (hFull : layerBound beam moves depth = beam)
    (hLater : depth ≤ later) :
    layerBound beam moves later = beam := by
  have hReached : beam ≤ moves ^ (depth + 1) :=
    min_eq_left_iff.mp hFull
  have hGrows : moves ^ (depth + 1) ≤ moves ^ (later + 1) :=
    Nat.pow_le_pow_right hMoves (by omega)
  exact min_eq_left (hReached.trans hGrows)

/- From the first full layer on all are full. -/
theorem layersBefore_full
    {beam moves depth : Nat}
    (hMoves : 0 < moves)
    (hFull : layerBound beam moves depth = beam)
    (count : Nat) :
    layersBefore beam moves (depth + count) =
      layersBefore beam moves depth + count * beam := by
  induction count with
  | zero => simp
  | succ count ih =>
      have hLast :=
        layerBound_full hMoves hFull (Nat.le_add_right depth count)
      calc layersBefore beam moves (depth + count + 1)
          = layersBefore beam moves (depth + count) +
              layerBound beam moves (depth + count) :=
            layersBefore_succ _ _ _
        _ = layersBefore beam moves depth + count * beam +
              beam := by
            rw [ih, hLast]
        _ = layersBefore beam moves depth +
              (count + 1) * beam := by
            rw [Nat.succ_mul, Nat.add_assoc]

/- With one move every layer has one state. -/
theorem layersBefore_one_move
    {beam : Nat}
    (depths : Nat)
    (hBeam : 1 < beam) :
    layersBefore beam 1 depths = depths := by
  induction depths with
  | zero => rfl
  | succ depths ih =>
      have hOne : layerBound beam 1 depths = 1 := by
        unfold layerBound
        rw [Nat.one_pow]
        exact min_eq_right (Nat.le_of_lt hBeam)
      rw [layersBefore_succ, ih, hOne]

/- Without a beam there is none. -/
theorem layersBefore_no_beam (moves depths : Nat) :
    layersBefore 0 moves depths = 0 := by
  induction depths with
  | zero => rfl
  | succ depths ih =>
      rw [layersBefore_succ, ih, layerBound, Nat.zero_min]

----------------
-- The Estimate
----------------

/-
  The loop over the depths; the induction is on those that are
  left.
-/
theorem estimateLoop_returns
    {depths beam moves : Nat}
    (hMoves : 0 < moves)
    (hBeam : beam < 2 ^ 64) :
    ∀ todo depth : Nat,
      depth + todo = depths →
      Returns
        (fun budget =>
          budget.requiredEntries =
            layersBefore beam moves depths)
        (estimateLoop depths beam moves todo depth
          (min beam (moves ^ depth))
          (layersBefore beam moves depth)) := by
  intro todo
  induction todo with
  | zero =>
      intro depth hDepth
      refine Returns.ok ?_
      rw [← hDepth, Nat.add_zero]
  | succ todo ih =>
      intro depth hDepth
      rw [estimateLoop, expand_power depth hMoves hBeam, ok_bind]
      by_cases hFull : layerBound beam moves depth = beam
      · -- The remaining layers are full.
        have hSum :=
          layersBefore_full hMoves hFull (depths - depth)
        rw [Nat.add_sub_cancel' (by omega)] at hSum
        rw [if_pos hFull, sub_eq (by omega), ok_bind,
          checkedMul]
        split_ifs with hProduct
        · rw [Option.bind_some, checkedAdd]
          split_ifs with hTotal
          · exact Returns.ok (by dsimp only; omega)
          · exact Returns.throw _ _
        · exact Returns.throw _ _
      · have hNext := ih (depth + 1) (by omega)
        rw [if_neg hFull, checkedAdd]
        split_ifs with hFits
        · rw [okOr, ok_bind, ← layersBefore_succ]
          exact hNext
        · exact Returns.throw _ _

/- The estimate is the sum of the layers. -/
theorem estimate_returns
    {beam : Nat}
    (depths moves : Nat)
    (hBeam : beam < 2 ^ 64) :
    Returns
      (fun budget =>
        0 < moves ∧
          budget.requiredEntries =
            layersBefore beam moves depths)
      (estimate depths beam moves) := by
  unfold estimate
  split_ifs with hZero hEmpty hSingle
  · exact Returns.throw _ _
  · refine Returns.ok ⟨Nat.pos_of_ne_zero hZero, ?_⟩
    rcases hEmpty with hDepths | hNoBeam
    · rw [hDepths]
      rfl
    · rw [hNoBeam, layersBefore_no_beam]
  · refine Returns.ok ⟨Nat.pos_of_ne_zero hZero, ?_⟩
    rw [hSingle.1, layersBefore_one_move depths hSingle.2]
  · have hMoves : 0 < moves := Nat.pos_of_ne_zero hZero
    have hStart : min beam (moves ^ 0) = 1 := by
      rw [Nat.pow_zero]
      omega
    have hLoop :=
      estimateLoop_returns hMoves hBeam depths 0
        (Nat.zero_add depths)
    rw [hStart] at hLoop
    rcases hLoop with ⟨budget, hRun, hRequired⟩ | hThrown
    · exact Or.inl ⟨budget, hRun, hMoves, hRequired⟩
    · exact Or.inr hThrown

----------------
-- The Placement
----------------

/- The layers before `depth` are placed. -/
structure Layered
    (beam moves ram disk depth : Nat)
    (p : Plan) : Prop where
  laid : Laid ram disk p
  bounds :
    p.depths.map Reservation.bound =
      (List.range depth).map (layerBound beam moves)
  total :
    p.ramReserved + p.diskReserved =
      layersBefore beam moves depth

/- A layer on disk is behind the ones before it. -/
theorem Layered.push_disk
    {beam moves ram disk depth : Nat}
    {p : Plan}
    (hLayered : Layered beam moves ram disk depth p)
    (hFree :
      layerBound beam moves depth ≤ disk - p.diskReserved) :
    Layered beam moves ram disk (depth + 1)
      { p with
        depths :=
          p.depths ++
            [⟨layerBound beam moves depth, p.diskReserved,
              .disk⟩]
        diskReserved :=
          p.diskReserved + layerBound beam moves depth } where
  laid := hLayered.laid.push_disk hFree
  bounds := by
    rw [List.range_succ, List.map_append, List.map_append,
      hLayered.bounds]
    rfl
  total := by
    rw [layersBefore_succ, ← hLayered.total, Nat.add_assoc]

/- A layer in RAM, in the same way. -/
theorem Layered.push_ram
    {beam moves ram disk depth : Nat}
    {p : Plan}
    (hLayered : Layered beam moves ram disk depth p)
    (hFree :
      layerBound beam moves depth ≤ ram - p.ramReserved) :
    Layered beam moves ram disk (depth + 1)
      { p with
        depths :=
          p.depths ++
            [⟨layerBound beam moves depth, p.ramReserved, .ram⟩]
        ramReserved :=
          p.ramReserved + layerBound beam moves depth } where
  laid := hLayered.laid.push_ram hFree
  bounds := by
    rw [List.range_succ, List.map_append, List.map_append,
      hLayered.bounds]
    rfl
  total := by
    rw [layersBefore_succ, ← hLayered.total,
      Nat.add_right_comm]

/- The loop over the layers. -/
theorem placeLayers_returns
    {beam moves ram disk : Nat}
    (hMoves : 0 < moves)
    (hBeam : beam < 2 ^ 64)
    (hRam : ram < 2 ^ 64)
    (hDisk : disk < 2 ^ 64) :
    ∀ (todo depth : Nat) (p : Plan),
      Layered beam moves ram disk depth p →
      Returns
        (fun p' =>
          Layered beam moves ram disk (depth + todo) p' ∧
            p'.required = p.required ∧
            p'.ramCapacity = p.ramCapacity)
        (placeLayers beam moves ram disk todo
          (min beam (moves ^ depth)) p) := by
  intro todo
  induction todo with
  | zero =>
      intro depth p hLayered
      exact Returns.ok ⟨hLayered, rfl, rfl⟩
  | succ todo ih =>
      intro depth p hLayered
      have hRamFits := hLayered.laid.ramFits
      have hDiskFits := hLayered.laid.diskFits
      rw [placeLayers, expand_power depth hMoves hBeam, ok_bind,
        sub_eq hDiskFits, ok_bind, ← Nat.add_assoc,
        Nat.add_right_comm]
      by_cases hOnDisk :
          layerBound beam moves depth ≤ disk - p.diskReserved
      · have hNext := ih _ _ (hLayered.push_disk hOnDisk)
        rw [if_pos hOnDisk, add_eq (by omega), ok_bind]
        exact hNext
      rw [if_neg hOnDisk, sub_eq hRamFits, ok_bind]
      by_cases hInRam :
          layerBound beam moves depth ≤ ram - p.ramReserved
      · have hNext := ih _ _ (hLayered.push_ram hInRam)
        rw [if_pos hInRam, add_eq (by omega), ok_bind]
        exact hNext
      · rw [if_neg hInRam]
        exact Returns.throw _ _

/- The plan of all layers. -/
theorem plan_returns
    {beam ram disk : Nat}
    (depths moves : Nat)
    (hBeam : beam < 2 ^ 64)
    (hRam : ram < 2 ^ 64)
    (hDisk : disk < 2 ^ 64) :
    Returns
      (fun p =>
        Layered beam moves ram disk depths p ∧
          p.required = layersBefore beam moves depths ∧
          p.ramCapacity = ram ∧
          p.fallbackEnd = p.ramReserved)
      (plan depths beam moves ram disk) := by
  unfold plan
  refine (estimate_returns depths moves hBeam).bind ?_
  intro budget hBudget
  rcases hBudget with ⟨hMoves, hRequired⟩
  have hStart :
      min beam (moves ^ 0) = if beam = 0 then 0 else 1 := by
    rw [Nat.pow_zero]
    split_ifs <;> omega
  dsimp only
  rw [← hStart, requireCapacity]
  split_ifs with hSmall
  · exact Returns.throw _ _
  rw [fromContract, ok_bind]
  have hEmpty :
      Layered beam moves ram disk 0
        { depths := []
          required := budget.requiredEntries
          ramReserved := 0
          diskReserved := 0
          ramCapacity := ram
          fallbackEnd := 0 } :=
    { laid :=
        { inside := fun r hr => absurd hr List.not_mem_nil
          apart := List.Pairwise.nil
          ramFits := Nat.zero_le _
          diskFits := Nat.zero_le _ }
      bounds := rfl
      total := rfl }
  refine
    (placeLayers_returns hMoves hBeam hRam hDisk depths 0 _
      hEmpty).bind ?_
  intro p hPlaced
  rcases hPlaced with ⟨hLayered, hTotal, hCapacity⟩
  rw [Nat.zero_add] at hLayered
  exact
    Returns.ok
      ⟨{ laid :=
          { inside := hLayered.laid.inside
            apart := hLayered.laid.apart
            ramFits := hLayered.laid.ramFits
            diskFits := hLayered.laid.diskFits }
         bounds := hLayered.bounds
         total := hLayered.total },
        hTotal.trans hRequired, hCapacity, rfl⟩

----------------
-- Fallback Extents
----------------

/-
  The extents of a row of requests, in the order of the
  requests. A refused request leaves the plan as it is.
-/
def Plan.fallbacks (p : Plan) : List Nat → List Reservation
  | [] => []
  | count :: counts =>
      match p.reserveFallback count with
      | .error _ => p.fallbacks counts
      | .ok (offset, next) =>
          ⟨count, offset, .ram⟩ :: next.fallbacks counts

/- Two extents share no entry. -/
def Apart (r r' : Reservation) : Prop :=
  r.offset + r.bound ≤ r'.offset ∨
    r'.offset + r'.bound ≤ r.offset

/- The fallbacks lie behind the planned layers. -/
theorem fallbacks_inside
    (counts : List Nat)
    (p : Plan) :
    ∀ r ∈ p.fallbacks counts,
      p.fallbackEnd ≤ r.offset ∧
        r.offset + r.bound ≤ p.ramCapacity := by
  induction counts generalizing p with
  | nil =>
      intro r hr
      cases hr
  | cons count counts ih =>
      intro r hr
      rw [Plan.fallbacks] at hr
      cases hReserve : p.reserveFallback count with
      | error e =>
          rw [hReserve] at hr
          exact ih p r hr
      | ok granted =>
          rw [hReserve] at hr
          rcases reserveFallback_eq_ok hReserve with
            ⟨hOffset, hNext, hRoom⟩
          rcases List.mem_cons.mp hr with hFirst | hRest
          · rw [hFirst, hOffset]
            exact ⟨Nat.le_refl _, hRoom⟩
          · have hLater := ih granted.2 r hRest
            rw [hNext] at hLater
            exact
              ⟨(Nat.le_add_right _ _).trans hLater.1, hLater.2⟩

/- Two fallbacks do not overlap. -/
theorem fallbacks_apart
    (counts : List Nat)
    (p : Plan) :
    (p.fallbacks counts).Pairwise Apart := by
  induction counts generalizing p with
  | nil => exact List.Pairwise.nil
  | cons count counts ih =>
      rw [Plan.fallbacks]
      cases hReserve : p.reserveFallback count with
      | error e => exact ih p
      | ok granted =>
          rcases reserveFallback_eq_ok hReserve with
            ⟨hOffset, hNext, -⟩
          refine List.Pairwise.cons ?_ (ih granted.2)
          intro r hr
          have hLater := (fallbacks_inside counts granted.2 r hr).1
          rw [hNext] at hLater
          dsimp only at hLater
          exact Or.inl (by dsimp only; omega)

----------------
-- Exactness
----------------

/- The capacity of a place. -/
def arenaOf (ram disk : Nat) : Location → Nat
  | .ram => ram
  | .disk => disk

/- What a plan promises, layer by layer and in sum. -/
structure Plan.Exact
    (depths beam moves ram disk : Nat)
    (p : Plan) : Prop where
  length : p.depths.length = depths
  bounds :
    ∀ (d : Nat) (r : Reservation), p.depths[d]? = some r →
      r.bound = min beam (moves ^ (d + 1))
  total :
    (p.depths.map Reservation.bound).sum = p.required
  reserved : p.required = p.ramReserved + p.diskReserved
  inside :
    ∀ r ∈ p.depths,
      r.offset + r.bound ≤ arenaOf ram disk r.location
  apart :
    ∀ (d e : Nat) (r r' : Reservation), d ≠ e →
      p.depths[d]? = some r → p.depths[e]? = some r' →
      r.location = r'.location → Apart r r'
  fallbackInside :
    ∀ counts, ∀ r ∈ p.fallbacks counts,
      r.offset + r.bound ≤ ram
  fallbackApart :
    ∀ counts, (p.fallbacks counts).Pairwise Apart
  fallbackClear :
    ∀ counts, ∀ r ∈ p.depths, ∀ r' ∈ p.fallbacks counts,
      r.location = .ram → Apart r r'

/- A finished plan is exact. -/
theorem Layered.exact
    {depths beam moves ram disk : Nat}
    {p : Plan}
    (hLayered : Layered beam moves ram disk depths p)
    (hRequired :
      p.required = layersBefore beam moves depths)
    (hCapacity : p.ramCapacity = ram)
    (hEnd : p.fallbackEnd = p.ramReserved) :
    p.Exact depths beam moves ram disk where
  length := by
    have hLength := congrArg List.length hLayered.bounds
    simpa using hLength
  bounds d r hr := by
    have hMap :
        (p.depths.map Reservation.bound)[d]? = some r.bound := by
      rw [List.getElem?_map, hr]
      rfl
    rw [hLayered.bounds] at hMap
    rcases List.getElem?_eq_some_iff.mp hMap with ⟨hd, hBound⟩
    rw [List.getElem_map, List.getElem_range] at hBound
    exact hBound.symm
  total := by
    rw [hLayered.bounds, hRequired]
    rfl
  reserved := hRequired.trans hLayered.total.symm
  inside r hr := by
    have hInside := hLayered.laid.inside r hr
    cases hLocation : r.location with
    | ram =>
        rw [hLocation] at hInside
        exact hInside.trans hLayered.laid.ramFits
    | disk =>
        rw [hLocation] at hInside
        exact hInside.trans hLayered.laid.diskFits
  apart d e r r' hNe hd he hSame :=
    hLayered.laid.disjoint hNe hd he hSame
  fallbackInside counts r hr :=
    hCapacity ▸ (fallbacks_inside counts p r hr).2
  fallbackApart counts := fallbacks_apart counts p
  fallbackClear counts r hr r' hr' hRam := by
    have hInside := hLayered.laid.inside r hr
    have hAbove := (fallbacks_inside counts p r' hr').1
    rw [hRam] at hInside
    rw [hEnd] at hAbove
    exact Or.inl (hInside.trans hAbove)

/-
  For all words the plan is exact or refused; no operation of
  the planner wraps or divides by zero.
-/
theorem plan_exact
    (depths moves : UInt32)
    (beam ram disk : UInt64) :
    (∃ p : Plan,
      plan depths.toNat beam.toNat moves.toNat ram.toNat
          disk.toNat =
        .ok p ∧
      p.Exact depths.toNat beam.toNat moves.toNat ram.toNat
        disk.toNat) ∨
    ∃ error : ContractError,
      plan depths.toNat beam.toNat moves.toNat ram.toNat
          disk.toNat =
        .error (.thrown error) := by
  rcases plan_returns depths.toNat moves.toNat beam.toNat_lt
      ram.toNat_lt disk.toNat_lt with
    ⟨p, hPlan, hLayered, hRequired, hCapacity, hEnd⟩ | hThrown
  · exact
      Or.inl
        ⟨p, hPlan, hLayered.exact hRequired hCapacity hEnd⟩
  · exact Or.inr hThrown

/- Four layers of 3, 9, 10 and 10 entries over two arenas. -/
example :
    (plan 4 10 3 30 15).toOption.map
        (fun p => (p.depths.map Reservation.bound,
          p.ramReserved, p.fallbacks [4, 7, 6])) =
      some
        ([3, 9, 10, 10], 20,
          [⟨4, 20, .ram⟩, ⟨6, 24, .ram⟩]) := by
  decide

end History

end BeamSearch
