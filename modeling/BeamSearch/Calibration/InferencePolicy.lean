import Mathlib.Data.List.Dedup
import BeamSearch.Calibration.Components

/-
  The microbatches an inference calibration tries.

  Coarse batches are powers of two around the baseline and the
  cap, in a seeded order. Refined batches lie around a winner.
  The winner is selected against the baseline, or against the
  best estimate if the baseline has none.

  Main declarations:
    * `coarseBatches`, `refinementBatches`
    * `selectInference`
    * `coarseBatches_spec`, `refinementBatches_spec`
    * `estimate_of_selectInference`
-/

namespace BeamSearch

namespace Calibration

open Text (Double ofDecimal)

----------------
-- Shuffling
----------------

/- Two items change places. -/
def swap (values : List Nat) (i j : Nat) : List Nat :=
  match values[i]?, values[j]? with
  | some a, some b => (values.set i b).set j a
  | _, _ => values

/- A place below `n`, from the next random number. -/
def drawPlace (seed : UInt64) (n : Nat) : Nat :=
  (random seed).1.toNat * n / 2 ^ 64

/- Give a place a random entry of those up to it. -/
def shuffleStep
    (state : List Nat × UInt64)
    (i : Nat) : List Nat × UInt64 :=
  (swap state.1 i (drawPlace state.2 (i + 1)),
    (random state.2).2)

/- Every place from the last down to the second. -/
def shuffle (values : List Nat) (seed : UInt64) : List Nat :=
  ((List.range' 1 (values.length - 1)).reverse.foldl shuffleStep
    (values, seed)).1

theorem perm_swap (values : List Nat) (i j : Nat) :
    (swap values i j).Perm values := by
  rw [swap]
  split
  next a b hA hB =>
    rcases List.getElem?_eq_some_iff.mp hA with ⟨hI, rfl⟩
    rcases List.getElem?_eq_some_iff.mp hB with ⟨hJ, rfl⟩
    exact List.set_set_perm hI hJ
  next => exact List.Perm.refl _

theorem perm_foldl_shuffleStep
    (places : List Nat)
    (state : List Nat × UInt64) :
    (places.foldl shuffleStep state).1.Perm state.1 := by
  induction places generalizing state with
  | nil => exact List.Perm.refl _
  | cons i places ih =>
      rw [List.foldl_cons]
      exact (ih _).trans (perm_swap _ _ _)

theorem perm_shuffle (values : List Nat) (seed : UInt64) :
    (shuffle values seed).Perm values :=
  perm_foldl_shuffleStep _ (values, seed)

----------------
-- Batches
----------------

/- The batches of the coarse search. -/
def powers : List Nat :=
  [32, 64, 128, 256, 512, 1024, 2048, 4096, 8192, 16384, 32768,
    65536]

/- The coarse batches up to the cap, with the baseline first. -/
def coarseBatches (cap : Nat) : Except ContractError (List Nat) :=
  if cap < 1 ∨ 65536 < cap then
    .error (.invalid "inference cap")
  else
    let baseline := min cap 256
    let larger :=
      powers.filter fun v => decide (baseline < v ∧ v < cap)
    let smaller := powers.filter fun v => decide (v < baseline)
    .ok
      (baseline :: (if cap ≠ baseline then [cap] else []) ++
        shuffle larger 20261009 ++ shuffle smaller 20261009)

/- The fractions of the winner that are tried. -/
def sixFractions : List (Nat × Nat) :=
  [(5, 8), (3, 4), (7, 8), (9, 8), (5, 4), (3, 2)]

/- A fraction of the winner, rounded to a multiple of the grain. -/
def refinedBatch (winner : Nat) (fraction : Nat × Nat) : Nat :=
  let grain := min (max (winner / 8) 1) 32
  (winner * fraction.1 + fraction.2 * grain / 2) /
      (fraction.2 * grain) *
    grain

/- The refined batches that were not tried yet. -/
def refinementBatches
    (winner cap : Nat)
    (visited : List Nat) : Except ContractError (List Nat) :=
  if winner = 0 ∨ cap < winner ∨ 65536 < cap then
    .error (.invalid "inference refinement bounds")
  else
    let batches := sixFractions.map (refinedBatch winner)
    let values :=
      (batches.filter fun batch =>
        decide (0 < batch ∧ batch ≤ cap) &&
          !visited.contains batch).dedup
    .ok (shuffle (values.insertionSort (· ≤ ·)) 20261010)

/- The first rejections and the estimate to compare against. -/
def comparison
    (samples : List Measurement)
    (baseline : String) :
    Except ContractError (String × Reasons) :=
  match estimate baseline samples with
  | .ok _ => .ok (baseline, [])
  | .error error =>
      let judged :=
        (profileNames samples).foldl (judge samples baseline)
          ([], [(baseline, error.text)])
      match byMedian judged.1 with
      | [] => .error (.invalid "no stable complete inference candidate")
      | best :: _ => .ok (best.profile, judged.2)

/- The best batch, and why others were not. -/
def selectInference
    (samples : List Measurement)
    (baseline : String) :
    Except ContractError (Estimate × Reasons) := do
  let base ← comparison samples baseline
  let selected ← select samples base.1 (ofDecimal false 2 100)
  pure
    (selected.1,
      selected.2.foldl
        (fun rejected entry =>
          Environment.insert entry.1 entry.2 rejected)
        base.2)

----------------
-- What Is Tried
----------------

theorem nodup_powers : powers.Nodup := by
  decide

/- Coarse batches are distinct and between one and the cap. -/
theorem coarseBatches_spec
    {cap : Nat}
    {batches : List Nat}
    (hBatches : coarseBatches cap = .ok batches) :
    batches.Nodup ∧
      (∀ batch ∈ batches, 0 < batch ∧ batch ≤ cap) ∧
        batches.head? = some (min cap 256) := by
  rw [coarseBatches] at hBatches
  split_ifs at hBatches with hCap
  dsimp only at hBatches
  have hSame := Except.ok.inj hBatches
  have hLarger :=
    perm_shuffle
      (powers.filter fun v => decide (min cap 256 < v ∧ v < cap))
      20261009
  have hSmaller :=
    perm_shuffle
      (powers.filter fun v => decide (v < min cap 256))
      20261009
  have hMemLarger :
      ∀ v, v ∈ shuffle
          (powers.filter fun v =>
            decide (min cap 256 < v ∧ v < cap)) 20261009 →
        min cap 256 < v ∧ v < cap := by
    intro v hMem
    rw [hLarger.mem_iff, List.mem_filter] at hMem
    exact of_decide_eq_true hMem.2
  have hMemSmaller :
      ∀ v, v ∈ shuffle
          (powers.filter fun v => decide (v < min cap 256))
          20261009 →
        0 < v ∧ v < min cap 256 := by
    intro v hMem
    rw [hSmaller.mem_iff, List.mem_filter] at hMem
    have hPowers : ∀ v ∈ powers, 0 < v := by
      decide
    exact ⟨hPowers v hMem.1, of_decide_eq_true hMem.2⟩
  have hNodupLarger :=
    hLarger.nodup_iff.mpr (nodup_powers.filter _)
  have hNodupSmaller :=
    hSmaller.nodup_iff.mpr (nodup_powers.filter _)
  rw [← hSame]
  refine ⟨?_, ?_, rfl⟩
  · refine List.nodup_append'.mpr ⟨?_, hNodupSmaller, ?_⟩
    · refine List.nodup_append'.mpr ⟨?_, hNodupLarger, ?_⟩
      · split_ifs with hOther
        · exact
            List.nodup_cons.mpr
              ⟨fun hMem =>
                hOther (List.mem_singleton.mp hMem).symm,
                List.nodup_singleton _⟩
        · exact List.nodup_singleton _
      · intro v hFirst hMem
        have hBounds := hMemLarger v hMem
        split_ifs at hFirst with hOther
        · simp only [List.mem_cons, List.not_mem_nil,
            or_false] at hFirst
          omega
        · simp only [List.mem_cons, List.not_mem_nil,
            or_false] at hFirst
          omega
    · intro v hFirst hMem
      have hBounds := hMemSmaller v hMem
      rcases List.mem_append.mp hFirst with hFirst | hFirst
      · split_ifs at hFirst with hOther
        · simp only [List.mem_cons, List.not_mem_nil,
            or_false] at hFirst
          omega
        · simp only [List.mem_cons, List.not_mem_nil,
            or_false] at hFirst
          omega
      · have hOver := hMemLarger v hFirst
        omega
  · intro batch hMem
    rcases List.mem_append.mp hMem with hMem | hMem
    · rcases List.mem_append.mp hMem with hMem | hMem
      · split_ifs at hMem with hOther
        · simp only [List.mem_cons, List.not_mem_nil,
            or_false] at hMem
          omega
        · simp only [List.mem_cons, List.not_mem_nil,
            or_false] at hMem
          omega
      · have hBounds := hMemLarger batch hMem
        omega
    · have hBounds := hMemSmaller batch hMem
      omega

/- Refined batches are new, and at most as many as fractions. -/
theorem refinementBatches_spec
    {winner cap : Nat}
    {visited batches : List Nat}
    (hBatches :
      refinementBatches winner cap visited = .ok batches) :
    batches.Nodup ∧
      (∀ batch ∈ batches,
        0 < batch ∧ batch ≤ cap ∧ batch ∉ visited) ∧
        batches.length ≤ 6 := by
  rw [refinementBatches] at hBatches
  split_ifs at hBatches with hBounds
  dsimp only at hBatches
  have hSame := Except.ok.inj hBatches
  rw [← hSame]
  have hPerm :=
    (perm_shuffle _ 20261010).trans
      (List.perm_insertionSort (· ≤ ·)
        ((sixFractions.map (refinedBatch winner)).filter
          fun batch =>
            decide (0 < batch ∧ batch ≤ cap) &&
              !visited.contains batch).dedup)
  refine ⟨hPerm.nodup_iff.mpr (List.nodup_dedup _), ?_, ?_⟩
  · intro batch hMem
    rw [hPerm.mem_iff, List.mem_dedup, List.mem_filter] at hMem
    simpa [and_assoc] using hMem.2
  · rw [hPerm.length_eq]
    exact
      ((List.dedup_sublist _).length_le.trans
        (List.length_filter_le _ _))

/- What is selected is the estimate of its own profile. -/
theorem estimate_of_selectInference
    {samples : List Measurement}
    {baseline : String}
    {winner : Estimate}
    {rejected : Reasons}
    (hSelect :
      selectInference samples baseline = .ok (winner, rejected)) :
    estimate winner.profile samples = .ok winner := by
  unfold selectInference at hSelect
  rcases except_bind_eq_ok hSelect with ⟨base, _, hSelect⟩
  rcases except_bind_eq_ok hSelect with
    ⟨⟨other, reasons⟩, hSelected, hSame⟩
  cases hSame
  exact estimate_of_select hSelected

end Calibration

end BeamSearch
