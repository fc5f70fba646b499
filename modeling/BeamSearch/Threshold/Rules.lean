import BeamSearch.Core.Types
import BeamSearch.Lib.Cdf

/-
  Histograms, their conservative union and threshold selection.

  The union of the histograms of two banks is computed tile by
  tile with carried cumulative counts. Selection takes the
  first score whose cumulative count reaches the beam width;
  the periodic rule keeps the published value from rising.

  Main declarations:
    * `BankHistogram`
    * `thresholdConservativeUnion`
    * `thresholdConservativeUnion_apply`
    * `ThresholdSlots`
    * `thresholdUpdatePeriodic`
-/

namespace BeamSearch

open Cdf

----------------
-- Score Histograms
----------------

/- The score histogram of a list; bins past the last one stay empty. -/
def scoreHistogram
    (rows : List CandidateMeta)
    (score : Nat) : Nat :=
  if score < scoreBinCount then
    histogram (fun c => c.scoreKey.toNat) rows score
  else
    0

theorem cdf_scoreHistogram_le
    (rows : List CandidateMeta)
    (score : Nat) :
    cdf (scoreHistogram rows) score ≤
      rows.countP fun c => c.scoreKey.toNat ≤ score := by
  rw [← cdf_histogram fun c : CandidateMeta => c.scoreKey.toNat]
  unfold cdf below
  apply Finset.sum_le_sum
  intro s _
  unfold scoreHistogram
  split
  · exact le_rfl
  · exact Nat.zero_le _

----------------
-- Published Histograms
----------------

/- The two publication slots of one bank's histogram. -/
structure BankHistogram where
  slot : Bool → Nat → Nat
  activeIndex : Bool

/- The bins that are read. -/
def BankHistogram.committed
    (hist : BankHistogram) : Nat → Nat :=
  hist.slot hist.activeIndex

/- Fill the inactive slot, then flip the published index. -/
def BankHistogram.commit
    (hist : BankHistogram)
    (bins : Nat → Nat) : BankHistogram :=
  { slot := Function.update hist.slot (!hist.activeIndex) bins
    activeIndex := !hist.activeIndex }

@[simp] theorem BankHistogram.committed_commit
    (hist : BankHistogram)
    (bins : Nat → Nat) :
    (hist.commit bins).committed = bins := by
  simp [commit, committed]

----------------
-- The Conservative Union Kernel
----------------

/- What a tile hands to the next. -/
structure UnionCarry where
  carryA : Nat
  carryB : Nat
  previousLower : Nat
  output : Nat → Nat

/- A histogram cut off after the last bin. -/
def inBins (hist : Nat → Nat) (score : Nat) : Nat :=
  if score < scoreBinCount then hist score else 0

/- The inclusive sum of a tile's lanes; lanes past the last bin add zero. -/
def tileInclusiveSum
    (hist : Nat → Nat)
    (base tid : Nat) : Nat :=
  ∑ lane ∈ Finset.range (tid + 1), inBins hist (base + lane)

/- One pass of the tile loop: 256 bins starting at `base`. -/
def unionTile
    (a b : Nat → Nat)
    (carry : UnionCarry)
    (base : Nat) : UnionCarry :=
  let prefixA := fun tid =>
    tileInclusiveSum a base tid + carry.carryA
  let prefixB := fun tid =>
    tileInclusiveSum b base tid + carry.carryB
  let lower := fun tid => max (prefixA tid) (prefixB tid)
  let before := fun tid =>
    if tid = 0 then carry.previousLower else lower (tid - 1)
  { carryA := prefixA 255
    carryB := prefixB 255
    previousLower := lower 255
    output := fun score =>
      if base ≤ score ∧ score < base + 256 ∧
          score < scoreBinCount then
        carry.output score +
          (lower (score - base) - before (score - base))
      else
        carry.output score }

/- The tiles, one after the other. -/
def unionTiles
    (a b output : Nat → Nat)
    (tiles : Nat) : UnionCarry :=
  (List.range tiles).foldl
    (fun carry tile => unionTile a b carry (256 * tile))
    { carryA := 0, carryB := 0, previousLower := 0, output }

/- The kernel adds the union of one pair of banks to `output`. -/
def thresholdConservativeUnion
    (a b output : Nat → Nat) : Nat → Nat :=
  (unionTiles a b output ((scoreBinCount + 255) / 256)).output

theorem tileInclusiveSum_add_below
    (hist : Nat → Nat)
    (base tid : Nat) :
    tileInclusiveSum hist base tid + below (inBins hist) base =
      below (inBins hist) (base + tid + 1) := by
  have hSplit :=
    Finset.sum_range_add (inBins hist) base (tid + 1)
  unfold tileInclusiveSum below
  rw [Nat.add_assoc base tid 1, hSplit, Nat.add_comm]

theorem unionTiles_succ
    (a b output : Nat → Nat)
    (tiles : Nat) :
    unionTiles a b output (tiles + 1) =
      unionTile a b (unionTiles a b output tiles)
        (256 * tiles) := by
  simp [unionTiles, List.range_succ]

/-
  After some tiles the carries are the cumulative counts of the
  bins passed, and the output of those bins is complete.
-/
theorem unionTiles_spec
    (a b output : Nat → Nat)
    (tiles : Nat) :
    (unionTiles a b output tiles).carryA =
        below (inBins a) (256 * tiles) ∧
      (unionTiles a b output tiles).carryB =
        below (inBins b) (256 * tiles) ∧
      (unionTiles a b output tiles).previousLower =
        max (below (inBins a) (256 * tiles))
          (below (inBins b) (256 * tiles)) ∧
      ∀ score,
        (unionTiles a b output tiles).output score =
          if score < 256 * tiles ∧ score < scoreBinCount then
            output score +
              conservativeUnion (inBins a) (inBins b) score
          else
            output score := by
  induction tiles with
  | zero => simp [unionTiles]
  | succ tiles ih =>
      rcases ih with ⟨hA, hB, hLower, hOutput⟩
      have hNext : 256 * tiles + 255 + 1 = 256 * (tiles + 1) := by
        omega
      rw [unionTiles_succ]
      simp only [unionTile, hA, hB, hLower,
        tileInclusiveSum_add_below, hNext, true_and]
      intro score
      by_cases hTile :
          256 * tiles ≤ score ∧ score < 256 * tiles + 256 ∧
            score < scoreBinCount
      · have hDone :
            ¬ (score < 256 * tiles ∧ score < scoreBinCount) := by
          omega
        have hNow :
            score < 256 * (tiles + 1) ∧ score < scoreBinCount := by
          omega
        rw [if_pos hNow]
        refine (if_pos hTile).trans ?_
        rw [hOutput, if_neg hDone]
        have hScore :
            256 * tiles + (score - 256 * tiles) + 1 =
              score + 1 := by
          omega
        -- lane zero reads the carry, the others their left neighbour
        by_cases hLane : score - 256 * tiles = 0
        · have hBase : 256 * tiles = score := by omega
          rw [if_pos hLane, hScore, hBase, conservativeUnion,
            cdf, cdf]
        · have hLeft :
              256 * tiles + (score - 256 * tiles - 1) + 1 =
                score := by
            omega
          rw [if_neg hLane, hScore, hLeft, conservativeUnion,
            cdf, cdf]
      · refine (if_neg hTile).trans ?_
        rw [hOutput]
        by_cases hDone :
            score < 256 * tiles ∧ score < scoreBinCount
        · rw [if_pos hDone, if_pos (by omega)]
        · rw [if_neg hDone, if_neg (by omega)]

theorem below_inBins
    (hist : Nat → Nat)
    {n : Nat}
    (hLe : n ≤ scoreBinCount) :
    below (inBins hist) n = below hist n := by
  apply below_congr
  intro i hLt
  rw [inBins, if_pos (by omega)]

theorem lt_tiles_of_lt
    {bins score : Nat}
    (hScore : score < bins) :
    score < 256 * ((bins + 255) / 256) := by
  omega

/- The tiled kernel adds the conservative union to every bin. -/
theorem thresholdConservativeUnion_apply
    (a b output : Nat → Nat)
    {score : Nat}
    (hScore : score < scoreBinCount) :
    thresholdConservativeUnion a b output score =
      output score + conservativeUnion a b score := by
  rcases unionTiles_spec a b output
      ((scoreBinCount + 255) / 256) with
    ⟨-, -, -, hOutput⟩
  unfold thresholdConservativeUnion
  rw [hOutput, if_pos ⟨lt_tiles_of_lt hScore, hScore⟩]
  have hLe : score ≤ scoreBinCount := hScore.le
  have hSucc : score + 1 ≤ scoreBinCount := by omega
  simp only [conservativeUnion, cdf, below_inBins _ hLe,
    below_inBins _ hSucc]

----------------
-- Published Thresholds
----------------

/- Two slots of published values and the index of the committed one. -/
structure ThresholdSlots where
  currentThreshold : Bool → UInt32
  thresholdInitialized : Bool → Bool
  activeIndex : Bool

namespace ThresholdSlots

/- The threshold that is read. -/
def active (slots : ThresholdSlots) : UInt32 :=
  slots.currentThreshold slots.activeIndex

/- Whether one was published. -/
def initialized (slots : ThresholdSlots) : Bool :=
  slots.thresholdInitialized slots.activeIndex

/- Write the inactive slot, then commit its index. -/
def publish
    (slots : ThresholdSlots)
    (threshold : UInt32)
    (init : Bool) : ThresholdSlots :=
  { currentThreshold :=
      Function.update slots.currentThreshold
        (!slots.activeIndex) threshold
    thresholdInitialized :=
      Function.update slots.thresholdInitialized
        (!slots.activeIndex) init
    activeIndex := !slots.activeIndex }

@[simp] theorem publish_active
    (slots : ThresholdSlots)
    (threshold : UInt32)
    (init : Bool) :
    (slots.publish threshold init).active = threshold := by
  simp [publish, active]

@[simp] theorem publish_initialized
    (slots : ThresholdSlots)
    (threshold : UInt32)
    (init : Bool) :
    (slots.publish threshold init).initialized = init := by
  simp [publish, initialized]

/- The state a depth starts from. -/
def reset : ThresholdSlots :=
  { currentThreshold := fun _ => uint32Max
    thresholdInitialized := fun _ => false
    activeIndex := false }

end ThresholdSlots

/- The score key of a crossing, or the sentinel when there is none. -/
def selectedKey : Option Nat → UInt32
  | some score => UInt32.ofNat score
  | none => uint32Max

theorem toNat_ofNat_of_lt
    {score : Nat}
    (hScore : score < scoreBinCount) :
    (UInt32.ofNat score).toNat = score := by
  rw [scoreBinCount_eq] at hScore
  exact UInt32.toNat_ofNat_of_lt'
    (Nat.lt_of_lt_of_le hScore (by decide))

theorem ofNat_ne_uint32Max
    {score : Nat}
    (hScore : score < scoreBinCount) :
    UInt32.ofNat score ≠ uint32Max := by
  intro hEq
  have hNat := toNat_ofNat_of_lt hScore
  rw [hEq, toNat_uint32Max] at hNat
  rw [scoreBinCount_eq] at hScore
  omega

/- The selection writes aside and publishes. -/
def thresholdSelect
    (globalScoreHist : Nat → Nat)
    (globalBeamWidthEffective : Nat)
    (slots : ThresholdSlots) : ThresholdSlots :=
  slots.publish
    (selectedKey
      (crossing? globalScoreHist globalBeamWidthEffective
        scoreBinCount))
    true

----------------
-- The Periodic Rule
----------------

/- What the scan of the bins carries. -/
structure PeriodicScan where
  total : Nat
  cumulative : Nat
  selected : UInt32

/- One bin more. The score stays once it was found. -/
def periodicScanStep
    (globalScoreHist : Nat → Nat)
    (globalBeamWidthEffective : Nat)
    (scan : PeriodicScan)
    (score : Nat) : PeriodicScan :=
  let bin := globalScoreHist score
  if scan.selected = uint32Max then
    { total := scan.total + bin
      cumulative := scan.cumulative + bin
      selected :=
        if scan.cumulative + bin ≥ globalBeamWidthEffective then
          UInt32.ofNat score
        else
          scan.selected }
  else
    { scan with total := scan.total + bin }

/- All bins, in their order. -/
def periodicScan
    (globalScoreHist : Nat → Nat)
    (globalBeamWidthEffective bins : Nat) : PeriodicScan :=
  (List.range bins).foldl
    (periodicScanStep globalScoreHist globalBeamWidthEffective)
    { total := 0, cumulative := 0, selected := uint32Max }

/-
  The periodic update: it only ever lowers a threshold that
  was published.
-/
def thresholdUpdatePeriodic
    (globalScoreHist : Nat → Nat)
    (globalBeamWidthEffective : Nat)
    (slots : ThresholdSlots) : ThresholdSlots :=
  let scan :=
    periodicScan globalScoreHist globalBeamWidthEffective
      scoreBinCount
  if slots.initialized = false ∧
      scan.total < globalBeamWidthEffective then
    slots.publish uint32Max false
  else if scan.total ≥ globalBeamWidthEffective then
    slots.publish
      (if slots.initialized = false ∨
          scan.selected < slots.active then
        scan.selected
      else
        slots.active)
      true
  else
    slots.publish slots.active slots.initialized

/- The loop adds all bins and remembers the first crossing. -/
theorem periodicScan_spec
    (hist : Nat → Nat)
    (width bins : Nat)
    (hBins : bins ≤ scoreBinCount) :
    (periodicScan hist width bins).total = below hist bins ∧
      (periodicScan hist width bins).selected =
        selectedKey (crossing? hist width bins) ∧
      (crossing? hist width bins = none →
        (periodicScan hist width bins).cumulative =
          below hist bins) := by
  induction bins with
  | zero => simp [periodicScan, crossing?, crossingLoop, selectedKey]
  | succ bins ih =>
      rcases ih (by omega) with
        ⟨hTotal, hSelected, hCumulative⟩
      have hSucc :
          periodicScan hist width (bins + 1) =
            periodicScanStep hist width
              (periodicScan hist width bins) bins := by
        simp [periodicScan, List.range_succ]
      rw [hSucc, periodicScanStep, crossing?_succ]
      cases hCross : crossing? hist width bins with
      | some score =>
          have hScore := (crossing?_eq_some hCross).1
          have hNe :
              (periodicScan hist width bins).selected ≠
                uint32Max := by
            rw [hSelected, hCross]
            exact ofNat_ne_uint32Max (by omega)
          rw [if_neg hNe]
          refine ⟨?_, ?_, ?_⟩
          · simp only [hTotal, below_succ]
          · simp only [hSelected, hCross]
          · intro hNone
            simp at hNone
      | none =>
          have hEq :
              (periodicScan hist width bins).selected =
                uint32Max := by
            rw [hSelected, hCross]
            rfl
          rw [if_pos hEq]
          simp only [hTotal, hCumulative hCross, hEq,
            ← below_succ, ge_iff_le]
          refine ⟨trivial, ?_, fun _ => trivial⟩
          split_ifs <;> rfl

/- Once initialised, an update keeps the flag and never raises the value. -/
theorem thresholdUpdatePeriodic_antitone
    (hist : Nat → Nat)
    (width : Nat)
    (slots : ThresholdSlots)
    (hInit : slots.initialized = true) :
    (thresholdUpdatePeriodic hist width slots).initialized =
        true ∧
      (thresholdUpdatePeriodic hist width slots).active ≤
        slots.active := by
  unfold thresholdUpdatePeriodic
  simp only [hInit, Bool.true_eq_false, false_and, false_or,
    if_false]
  split_ifs with hTotal hLess
  · exact ⟨by simp, by simpa using UInt32.le_of_lt hLess⟩
  · exact ⟨by simp, by simp⟩
  · exact ⟨by simp, by simp⟩

/-
  An update stays at or above any bound that lies below every
  score at which the histogram reaches the width.
-/
theorem le_thresholdUpdatePeriodic
    (hist : Nat → Nat)
    (width bound : Nat)
    (slots : ThresholdSlots)
    (hMax : bound ≤ uint32Max.toNat)
    (hBound :
      ∀ score < scoreBinCount,
        width ≤ cdf hist score → bound ≤ score)
    (hActive : bound ≤ slots.active.toNat) :
    bound ≤
      (thresholdUpdatePeriodic hist width slots).active.toNat := by
  rcases periodicScan_spec hist width scoreBinCount le_rfl with
    ⟨-, hSelected, -⟩
  have hKey :
      bound ≤
        (periodicScan hist width scoreBinCount).selected.toNat := by
    rw [hSelected]
    cases hCross : crossing? hist width scoreBinCount with
    | none => exact hMax
    | some score =>
        rcases crossing?_eq_some hCross with ⟨hBin, hReach, -⟩
        rw [selectedKey, toNat_ofNat_of_lt hBin]
        exact hBound score hBin hReach
  unfold thresholdUpdatePeriodic
  simp only
  split_ifs
  · simpa using hMax
  · simpa using hKey
  · simpa using hActive
  · simpa using hActive

end BeamSearch
