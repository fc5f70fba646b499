import BeamSearch.Core.Graph
import BeamSearch.Lib.Arrangements
import BeamSearch.Lib.Word

/-
  A finite ceiling on the width of a frontier.

  A frontier never holds more states than the memory of the
  cohort, the explicit ceiling, and the arrangements of the
  center's labels less the states that are no frontier. The
  arrangements are counted up to a limit only, label by label
  and factor by factor.

  Arithmetic is that of the machine and stops at a wrap. The
  loops also return every division they make.

  Main declarations:
    * `frontierCeiling`
    * `chooseLoop`, `countLoop`
    * `mem_excludedStates_iff`
    * `frontierCeiling_exact`
-/

namespace BeamSearch

namespace Calibration

open Word Arrangements

----------------
-- Excluded States
----------------

/- The inverse of a permutation. -/
def invert (generator : List Nat) : List Nat :=
  generator.zipIdx.foldl
    (fun inverse (source, index) => inverse.set source index)
    (List.replicate generator.length 0)

/- The state that the generator leads to the centre from. -/
def inverseNeighbor
    (center : List UInt8)
    (generator : List Nat) : List UInt8 :=
  (invert generator).map fun i => center.getD i 0

/- The ordered set holds every state once. -/
def excludedStates (graph : PermutationGraph) :
    List (List UInt8) :=
  graph.generators.foldl
    (fun excluded generator =>
      excluded.insert (inverseNeighbor graph.center generator))
    [graph.center]

----------------
-- Counting Arrangements
----------------

/- How many places carry each of the 256 labels. -/
def labelCounts (center : List UInt8) : List Nat :=
  center.foldl
    (fun counts value => counts.modify value.toNat (· + 1))
    (List.replicate 256 0)

/- A numerator and the denominator it is divided by. -/
abbrev Division : Type := Nat × Nat

/- The binomial coefficient, or nothing at the limit. -/
def chooseLoop
    (limit arrangements previous : Nat) :
    (choose : Nat) →
    (indices : List Nat) →
    Checked ContractError (Option Nat × List Division)
  | choose, [] => .ok (some choose, [])
  | choose, i :: indices => do
      let numerator ← mul 128 choose (previous + i)
      let choose ← div numerator i
      let product ← mul 128 choose arrangements
      if product ≥ limit then
        .ok (none, [(numerator, i)])
      else do
        let (chosen, divisions) ←
          chooseLoop limit arrangements previous choose indices
        .ok (chosen, (numerator, i) :: divisions)

/-
  The count so far, whether it was cut, and the divisions
  made.
-/
structure Counted where
  arrangements : Nat
  clamped : Bool
  divisions : List Division
deriving DecidableEq, Repr

/- One label after the other; the count stops at the limit. -/
def countLoop (limit : Nat) :
    (arrangements previous : Nat) →
    (counts : List Nat) →
    Checked ContractError Counted
  | arrangements, _, [] =>
      .ok { arrangements, clamped := false, divisions := [] }
  | arrangements, previous, count :: counts => do
      let (chosen, divisions) ←
        chooseLoop limit arrangements previous 1
          (List.range' 1 count)
      match chosen with
      | none =>
          .ok { arrangements := limit, clamped := true, divisions }
      | some choose => do
          let arrangements ← mul 128 arrangements choose
          let rest ←
            countLoop limit arrangements (previous + count) counts
          .ok { rest with divisions := divisions ++ rest.divisions }

----------------
-- The Ceiling
----------------

/- What the ceiling tells. -/
structure FrontierCeiling where
  upperBound : Nat
  memoryStateCeiling : Nat
  explicitStateCeiling : Option UInt64
  excludedStates : Nat
  multisetBoundClamped : Bool
  reachableOrbitVerified : Bool
deriving DecidableEq, Repr

/- The greatest 64-bit word. -/
def u64Max : Nat := 2 ^ 64 - 1

/- The arguments describe a cohort of devices. -/
def cohortFits
    (graph : PermutationGraph)
    (world : UInt32)
    (storage : UInt64)
    (gpuBytes : List UInt64)
    (explicit : Option UInt64) : Bool :=
  ¬ (world = 0 ∨
    gpuBytes.length ≠ world.toNat ∨
    gpuBytes.contains 0 ∨
    storage.toNat < graph.center.length ∨
    storage.toNat % 16 ≠ 0 ∨
    explicit = some 0)

/- The least device. -/
def minBytes (gpuBytes : List UInt64) : Nat :=
  ((gpuBytes.map UInt64.toNat).min?).getD 0

/-
  The ceiling: by the arrangements, the memory and what the
  caller allows.
-/
def frontierCeiling
    (graph : PermutationGraph)
    (world : UInt32)
    (storage : UInt64)
    (gpuBytes : List UInt64)
    (explicit : Option UInt64) :
    Checked ContractError (FrontierCeiling × List Division) :=
  match graph.validate with
  | .error error => throwing error
  | .ok () =>
      if ¬ cohortFits graph world storage gpuBytes explicit then
        throwing (.invalid "capacity cohort/storage/ceiling")
      else do
        let total ← mul 128 (minBytes gpuBytes) world.toNat
        let quotient ← div total storage.toNat
        let memory := min quotient u64Max
        let cap := min memory ((explicit.map UInt64.toNat).getD u64Max)
        let excluded := excludedStates graph
        let reserved ← add 128 cap excluded.length
        let limit ← add 128 reserved 1
        let counted ← countLoop limit 1 0
          ((labelCounts graph.center).filter (0 < ·))
        let available := counted.arrangements - excluded.length
        .ok
          ({ upperBound := min available cap
             memoryStateCeiling := memory
             explicitStateCeiling := explicit
             excludedStates := excluded.length
             multisetBoundClamped := counted.clamped
             reachableOrbitVerified := false },
            counted.divisions)

----------------
-- The Loops Are Exact
----------------

/- The division leaves no rest. -/
def Exact (division : Division) : Prop :=
  division.2 ∣ division.1

/- One factor of the product, below the limit so far. -/
theorem factor_eq
    {limit arrangements previous i size : Nat}
    (hSmall : size * limit ≤ 2 ^ 128)
    (hPos : 0 < arrangements)
    (hSize : previous + (i + 1) ≤ size)
    (hBelow : (previous + i).choose i * arrangements < limit) :
    ∃ numerator,
      (mul 128 ((previous + i).choose i) (previous + (i + 1)) :
        Checked ContractError Nat) = .ok numerator ∧
      (div numerator (i + 1) : Checked ContractError Nat) =
        .ok ((previous + (i + 1)).choose (i + 1)) ∧
      (mul 128 ((previous + (i + 1)).choose (i + 1))
          arrangements : Checked ContractError Nat) =
        .ok ((previous + (i + 1)).choose (i + 1) *
          arrangements) ∧
      Exact (numerator, i + 1) := by
  have hStep := choose_mul_add previous i
  have hWide :
      (previous + i).choose i * (previous + (i + 1)) *
          arrangements < 2 ^ 128 := by
    calc (previous + i).choose i * (previous + (i + 1)) *
          arrangements
        = (previous + (i + 1)) *
            ((previous + i).choose i * arrangements) := by ring
      _ ≤ size * ((previous + i).choose i * arrangements) :=
          Nat.mul_le_mul_right _ hSize
      _ < size * limit :=
          Nat.mul_lt_mul_of_pos_left hBelow (by omega)
      _ ≤ 2 ^ 128 := hSmall
  have hNumerator :
      (previous + i).choose i * (previous + (i + 1)) <
        2 ^ 128 :=
    lt_of_le_of_lt (Nat.le_mul_of_pos_right _ hPos) hWide
  have hProduct :
      (previous + (i + 1)).choose (i + 1) * arrangements <
        2 ^ 128 := by
    refine lt_of_le_of_lt (Nat.mul_le_mul_right _ ?_) hWide
    rw [hStep]
    exact Nat.le_mul_of_pos_right _ (Nat.succ_pos i)
  refine ⟨_, mul_eq hNumerator, ?_, mul_eq hProduct, ?_⟩
  · rw [div_eq (Nat.succ_pos i), hStep,
      Nat.mul_div_cancel _ (Nat.succ_pos i)]
  · exact ⟨_, hStep.trans (Nat.mul_comm _ _)⟩

/- The outcome is the coefficient, or the limit is reached. -/
theorem chooseLoop_eq
    {limit arrangements previous size i : Nat}
    (hSmall : size * limit ≤ 2 ^ 128)
    (hPos : 0 < arrangements)
    (rest : Nat)
    (hSize : previous + (i + rest) ≤ size)
    (hBelow : (previous + i).choose i * arrangements < limit) :
    ∃ chosen divisions,
      chooseLoop limit arrangements previous
          ((previous + i).choose i) (List.range' (i + 1) rest) =
        .ok (chosen, divisions) ∧
      (∀ division ∈ divisions, Exact division) ∧
      (match chosen with
        | some choose =>
            choose = (previous + (i + rest)).choose (i + rest) ∧
              choose * arrangements < limit
        | none =>
            limit ≤ (previous + (i + rest)).choose (i + rest) *
              arrangements) := by
  induction rest generalizing i with
  | zero =>
      exact ⟨_, _, rfl, fun _ hMem => (nomatch hMem), rfl, hBelow⟩
  | succ rest ih =>
      rcases factor_eq hSmall hPos (by omega) hBelow with
        ⟨numerator, hNumerator, hQuotient, hProduct, hExact⟩
      rw [List.range'_succ, chooseLoop, hNumerator, ok_bind,
        hQuotient, ok_bind, hProduct, ok_bind]
      by_cases hLimit :
          (previous + (i + 1)).choose (i + 1) * arrangements ≥
            limit
      · rw [if_pos hLimit]
        refine ⟨none, _, rfl, ?_, ?_⟩
        · intro division hMem
          rwa [List.mem_singleton.mp hMem]
        · exact hLimit.le.trans
            (Nat.mul_le_mul_right _ (choose_le_of_le (by omega)))
      · rw [if_neg hLimit]
        rcases ih (i := i + 1) (by omega) (by omega) with
          ⟨chosen, divisions, hLoop, hAll, hChosen⟩
        rw [hLoop, ok_bind]
        rw [show i + 1 + rest = i + (rest + 1) by omega] at hChosen
        refine ⟨chosen, _, rfl, ?_, hChosen⟩
        intro division hMem
        rcases List.mem_cons.mp hMem with rfl | hMem
        · exact hExact
        · exact hAll division hMem

theorem countLoop_eq
    {limit size : Nat}
    (hPlaces : 0 < size)
    (hSmall : size * limit ≤ 2 ^ 128)
    {arrangements previous : Nat}
    (counts : List Nat)
    (hPos : 0 < arrangements)
    (hSize : previous + counts.sum ≤ size)
    (hBelow : arrangements < limit) :
    ∃ counted,
      countLoop limit arrangements previous counts = .ok counted ∧
      (∀ division ∈ counted.divisions, Exact division) ∧
      (counted.clamped = false →
        counted.arrangements =
          arrangements * orderings previous counts) ∧
      (counted.clamped = true →
        counted.arrangements = limit ∧
          limit ≤ arrangements * orderings previous counts) := by
  induction counts generalizing arrangements previous with
  | nil =>
      refine
        ⟨_, rfl, fun _ hMem => absurd hMem List.not_mem_nil, ?_,
          fun hClamped => by cases hClamped⟩
      intro _
      rw [orderings, Nat.mul_one]
  | cons count counts ih =>
      rw [List.sum_cons] at hSize
      have hStart :
          (previous + 0).choose 0 * arrangements < limit := by
        rwa [Nat.choose_zero_right, Nat.one_mul]
      rcases chooseLoop_eq hSmall hPos count
          (by omega) hStart with
        ⟨chosen, divisions, hLoop, hExact, hChosen⟩
      rw [Nat.choose_zero_right, Nat.zero_add] at hLoop
      rw [countLoop, hLoop, ok_bind]
      rw [Nat.zero_add] at hChosen
      cases chosen with
      | none =>
          refine
            ⟨_, rfl, hExact, (fun hClamped => by cases hClamped),
              fun _ => ⟨rfl, ?_⟩⟩
          rw [orderings, ← Nat.mul_assoc,
            Nat.mul_comm arrangements]
          exact hChosen.trans
            (Nat.le_mul_of_pos_right _ (orderings_pos _ _))
      | some choose =>
          rcases hChosen with ⟨rfl, hNext⟩
          rw [Nat.mul_comm] at hNext
          have hWide :
              arrangements * (previous + count).choose count <
                2 ^ 128 := by
            refine lt_of_lt_of_le hNext (le_trans ?_ hSmall)
            exact Nat.le_mul_of_pos_left _ hPlaces
          dsimp only
          rw [mul_eq hWide, ok_bind]
          rcases @ih _ (previous + count)
              (Nat.mul_pos hPos
                (Nat.choose_pos (Nat.le_add_left ..)))
              (by omega) hNext with
            ⟨counted, hRest, hAll, hFree, hClamped⟩
          rw [hRest, ok_bind]
          rw [Nat.mul_assoc] at hFree hClamped
          refine ⟨_, rfl, ?_, hFree, hClamped⟩
          intro division hMem
          rcases List.mem_append.mp hMem with hMem | hMem
          · exact hExact division hMem
          · exact hAll division hMem

----------------
-- The Counts Of The Labels
----------------

/- All bytes. -/
def allLabels : List UInt8 :=
  (List.range 256).map UInt8.ofNat

/- The values that the centre has. -/
def carriedLabels (center : List UInt8) : List UInt8 :=
  allLabels.filter fun value => 0 < center.count value

theorem getElem?_countValues
    {center : List UInt8}
    {counts : List Nat}
    {v : Nat}
    (hv : v < 256) :
    (center.foldl
        (fun counts value => counts.modify value.toNat (· + 1))
        counts)[v]? =
      counts[v]?.map (· + center.count (UInt8.ofNat v)) := by
  induction center generalizing counts with
  | nil => simp
  | cons value center ih =>
      rw [List.foldl_cons, ih, List.getElem?_modify,
        List.count_cons]
      cases counts[v]? with
      | none => rfl
      | some n =>
          refine congrArg some ?_
          dsimp only
          by_cases hSame : value.toNat = v
          · have hValue : value = UInt8.ofNat v := by
              rw [← hSame, UInt8.ofNat_toNat]
            rw [if_pos hSame, if_pos (beq_iff_eq.mpr hValue)]
            omega
          · have hValue : ¬ value = UInt8.ofNat v := by
              rintro rfl
              rw [UInt8.toNat_ofNat'] at hSame
              omega
            rw [if_neg hSame, if_neg (beq_iff_eq.not.mpr hValue),
              Nat.add_zero]

theorem labelCounts_eq (center : List UInt8) :
    labelCounts center = allLabels.map center.count := by
  have hLength : (labelCounts center).length = 256 := by
    have hFold :
        ∀ (values : List UInt8) (counts : List Nat),
          (values.foldl
              (fun counts value =>
                counts.modify value.toNat (· + 1))
              counts).length = counts.length := by
      intro values
      induction values with
      | nil => exact fun _ => rfl
      | cons value values ih =>
          intro counts
          rw [List.foldl_cons, ih, List.length_modify]
    rw [labelCounts, hFold, List.length_replicate]
  refine List.ext_getElem? fun v => ?_
  by_cases hv : v < 256
  · rw [labelCounts, getElem?_countValues hv]
    rw [List.getElem?_replicate_of_lt hv, allLabels,
      List.map_map, List.getElem?_map, List.getElem?_range hv,
      Option.map_some, Option.map_some, Nat.zero_add]
    rfl
  · rw [List.getElem?_eq_none (by omega),
      List.getElem?_eq_none (by
        rw [List.length_map, allLabels, List.length_map,
          List.length_range]
        omega)]

theorem nodup_allLabels : allLabels.Nodup := by
  refine List.Nodup.map_on ?_ List.nodup_range
  intro v hv w hw hSame
  have hNat := congrArg UInt8.toNat hSame
  rw [List.mem_range] at hv hw
  rw [UInt8.toNat_ofNat', UInt8.toNat_ofNat'] at hNat
  omega

theorem mem_allLabels (value : UInt8) : value ∈ allLabels := by
  refine List.mem_map.mpr ⟨value.toNat, ?_, UInt8.ofNat_toNat⟩
  rw [List.mem_range]
  exact value.toNat_lt

theorem filter_labelCounts (center : List UInt8) :
    (labelCounts center).filter (0 < ·) =
      (carriedLabels center).map fun value =>
        center.count value := by
  rw [labelCounts_eq, List.filter_map]
  rfl

theorem toFinset_carriedLabels (center : List UInt8) :
    (carriedLabels center).toFinset = center.toFinset := by
  ext value
  simp [carriedLabels, mem_allLabels]

theorem nodup_carriedLabels (center : List UInt8) :
    (carriedLabels center).Nodup :=
  nodup_allLabels.filter _

/- The loop multiplies up to all arrangements of the labels. -/
theorem orderings_labelCounts (center : List UInt8) :
    orderings 0 ((labelCounts center).filter (0 < ·)) =
      arrangements center := by
  rw [filter_labelCounts,
    orderings_eq_multinomial _ (nodup_carriedLabels center),
    toFinset_carriedLabels]
  rfl

theorem sum_labelCounts (center : List UInt8) :
    ((labelCounts center).filter (0 < ·)).sum = center.length := by
  rw [filter_labelCounts,
    ← List.sum_toFinset _ (nodup_carriedLabels center),
    toFinset_carriedLabels, List.sum_toFinset_count_eq_length]

----------------
-- The Inverse Of A Generator
----------------

section Inverse

/- The writes to a row, in their order. -/
def writeAll
    (writes : List (Nat × Nat))
    (row : List Nat) : List Nat :=
  writes.foldl
    (fun inverse (source, index) => inverse.set source index) row

theorem length_writeAll
    (writes : List (Nat × Nat))
    (row : List Nat) :
    (writeAll writes row).length = row.length := by
  induction writes generalizing row with
  | nil => rfl
  | cons write writes ih =>
      exact (ih _).trans (List.length_set ..)

theorem writeAll_of_ne
    {writes : List (Nat × Nat)}
    {row : List Nat}
    {place : Nat}
    (hOther : place ∉ writes.map Prod.fst) :
    (writeAll writes row)[place]? = row[place]? := by
  induction writes generalizing row with
  | nil => rfl
  | cons write writes ih =>
      rw [List.map_cons, List.mem_cons, not_or] at hOther
      exact (ih hOther.2).trans
        (List.getElem?_set_ne (Ne.symm hOther.1))

/- Writes to different places all stay. -/
theorem writeAll_of_mem
    {writes : List (Nat × Nat)}
    {row : List Nat}
    {place index : Nat}
    (hNodup : (writes.map Prod.fst).Nodup)
    (hMem : (place, index) ∈ writes)
    (hIn : place < row.length) :
    (writeAll writes row)[place]? = some index := by
  induction writes generalizing row with
  | nil => cases hMem
  | cons write writes ih =>
      rw [List.map_cons] at hNodup
      rcases List.nodup_cons.mp hNodup with ⟨hFirst, hNodup⟩
      rcases List.mem_cons.mp hMem with rfl | hMem
      · exact (writeAll_of_ne hFirst).trans
          (List.getElem?_set_self hIn)
      · exact ih hNodup hMem (by rwa [List.length_set])

variable {generator : List Nat}
variable (hNodup : generator.Nodup)
variable (hSources : ∀ source ∈ generator,
  source < generator.length)

theorem length_invert (generator : List Nat) :
    (invert generator).length = generator.length :=
  (length_writeAll _ _).trans List.length_replicate

include hNodup hSources

theorem getElem?_invert
    {place source : Nat}
    (hPlace : generator[place]? = some source) :
    (invert generator)[source]? = some place := by
  have hIn := hSources source (List.mem_of_getElem? hPlace)
  refine writeAll_of_mem ?_
    (List.mk_mem_zipIdx_iff_getElem?.mpr hPlace)
    (by rwa [List.length_replicate])
  rwa [List.zipIdx_map_fst]

/- Every place is the source of some place. -/
theorem exists_place
    {source : Nat}
    (hIn : source < generator.length) :
    ∃ place : Nat, generator[place]? = some source := by
  have hPerm :
      generator.Perm (List.range generator.length) := by
    refine List.Subperm.perm_of_length_le
      (List.subperm_of_subset hNodup fun source hMem =>
        List.mem_range.mpr (hSources source hMem)) ?_
    rw [List.length_range]
  exact List.mem_iff_getElem?.mp
    (hPerm.mem_iff.mpr (List.mem_range.mpr hIn))

variable {center : List UInt8}
variable (hSize : generator.length = center.length)

theorem getElem?_inverseNeighbor
    {place source : Nat}
    (hPlace : generator[place]? = some source) :
    (inverseNeighbor center generator)[source]? =
      some (center.getD place 0) := by
  rw [inverseNeighbor, List.getElem?_map,
    getElem?_invert hNodup hSources hPlace, Option.map_some]

include hSize

theorem applyGenerator_eq_iff
    {state : List UInt8}
    (hLength : state.length = center.length) :
    PermutationGraph.applyGenerator generator state = center ↔
      state = inverseNeighbor center generator := by
  constructor
  · rintro hCenter
    refine List.ext_getElem? fun source => ?_
    by_cases hIn : source < generator.length
    · rcases exists_place hNodup hSources hIn with
        ⟨place, hPlace⟩
      rw [getElem?_inverseNeighbor hNodup hSources hPlace,
        ← hCenter, PermutationGraph.applyGenerator,
        List.getD_eq_getElem?_getD (i := place),
        List.getElem?_map, hPlace]
      rw [Option.map_some, Option.getD_some,
        List.getD_eq_getElem?_getD,
        List.getElem?_eq_getElem (by omega), Option.getD_some]
    · rw [List.getElem?_eq_none (by omega),
        List.getElem?_eq_none (by
          rw [inverseNeighbor, List.length_map, length_invert]
          omega)]
  · rintro rfl
    refine List.ext_getElem? fun place => ?_
    rw [PermutationGraph.applyGenerator, List.getElem?_map]
    by_cases hIn : place < generator.length
    · have hPlace := List.getElem?_eq_getElem hIn
      rw [hPlace, Option.map_some,
        List.getD_eq_getElem?_getD,
        getElem?_inverseNeighbor hNodup hSources hPlace,
        Option.getD_some, List.getD_eq_getElem?_getD,
        List.getElem?_eq_getElem (by omega), Option.getD_some]
    · rw [List.getElem?_eq_none (by omega),
        List.getElem?_eq_none (by omega), Option.map_none]

/- The neighbor carries the labels of the center elsewhere. -/
theorem inverseNeighbor_rearranged :
    ∃ σ : Equiv.Perm (Fin center.length),
      inverseNeighbor center generator =
        List.ofFn (center.get ∘ σ) := by
  have hLt (i : Fin center.length) :
      generator.get (i.cast hSize.symm) < center.length :=
    lt_of_lt_of_eq (hSources _ (List.get_mem ..)) hSize
  let source (i : Fin center.length) : Fin center.length :=
    ⟨generator.get (i.cast hSize.symm), hLt i⟩
  have hInjective : Function.Injective source := by
    intro i j hSame
    have hPlaces := congrArg Fin.val
      (hNodup.get_inj_iff.mp (congrArg Fin.val hSame))
    exact Fin.ext hPlaces
  let σ := Equiv.ofBijective source
    (Finite.injective_iff_bijective.mp hInjective)
  refine ⟨σ.symm, List.ext_getElem? fun target => ?_⟩
  by_cases hIn : target < center.length
  · have hPlace :
        generator[(σ.symm ⟨target, hIn⟩).val]? =
          some target := by
      have hBack := congrArg Fin.val
        (σ.apply_symm_apply ⟨target, hIn⟩)
      have hBound : (σ.symm ⟨target, hIn⟩).val <
          generator.length := by omega
      exact List.getElem?_eq_some_iff.mpr ⟨hBound, hBack⟩
    rw [getElem?_inverseNeighbor hNodup hSources hPlace,
      List.getElem?_ofFn, dif_pos hIn,
      List.getD_eq_getElem?_getD,
      List.getElem?_eq_getElem (σ.symm ⟨target, hIn⟩).isLt,
      Option.getD_some]
    rfl
  · rw [List.getElem?_eq_none (by
        rw [inverseNeighbor, List.length_map, length_invert]
        omega),
      List.getElem?_eq_none (by
        rw [List.length_ofFn]
        omega)]

end Inverse

----------------
-- The Excluded States
----------------

section Inserted

variable {α β : Type} [BEq β] [LawfulBEq β]
variable (f : α → β)

/-
  The images of all items, put into a list without repetition.
-/
def insertAll (xs : List α) (start : List β) : List β :=
  xs.foldl (fun held x => held.insert (f x)) start

theorem mem_insertAll_iff
    {xs : List α}
    {start : List β}
    {b : β} :
    b ∈ insertAll f xs start ↔
      b ∈ start ∨ ∃ x ∈ xs, b = f x := by
  induction xs generalizing start with
  | nil => simp [insertAll]
  | cons x xs ih =>
      refine Iff.trans ih ?_
      rw [List.mem_insert_iff, List.exists_mem_cons_iff]
      tauto

theorem nodup_insertAll
    {xs : List α}
    {start : List β}
    (hNodup : start.Nodup) :
    (insertAll f xs start).Nodup := by
  induction xs generalizing start with
  | nil => exact hNodup
  | cons x xs ih => exact ih hNodup.insert

theorem length_insertAll_le
    (xs : List α)
    (start : List β) :
    (insertAll f xs start).length ≤ start.length + xs.length := by
  induction xs generalizing start with
  | nil => exact Nat.le_refl _
  | cons x xs ih =>
      have hInsert :
          (start.insert (f x)).length ≤ start.length + 1 := by
        by_cases hMem : f x ∈ start
        · rw [List.length_insert_of_mem hMem]
          omega
        · rw [List.length_insert_of_not_mem hMem]
      refine (ih (start.insert (f x))).trans ?_
      rw [List.length_cons]
      omega

end Inserted

section Excluded

variable {graph : PermutationGraph}

theorem excludedStates_eq (graph : PermutationGraph) :
    excludedStates graph =
      insertAll (inverseNeighbor graph.center) graph.generators
        [graph.center] :=
  rfl

variable (hValid : graph.validate = .ok ())

include hValid

theorem validated
    {generator : List Nat}
    (hMem : generator ∈ graph.generators) :
    generator.Nodup ∧
      (∀ source ∈ generator, source < generator.length) ∧
      generator.length = graph.center.length := by
  rcases List.mem_iff_getElem?.mp hMem with ⟨movement, hAt⟩
  rcases PermutationGraph.generator_of_validate hValid hAt with
    ⟨hLength, hSources⟩
  exact ⟨PermutationGraph.nodup_of_validate hValid hMem,
    by rwa [hLength], hLength⟩

/- A rearranged center passes the check of a start state. -/
theorem validateStart_rearranged
    (σ : Equiv.Perm (Fin graph.center.length)) :
    graph.validateStart (List.ofFn (graph.center.get ∘ σ)) =
      .ok () := by
  have hPerm :
      (List.ofFn (graph.center.get ∘ σ)).Perm graph.center := by
    have hOfFn := σ.ofFn_comp_perm graph.center.get
    rwa [List.ofFn_get] at hOfFn
  have hSorted :
      PermutationGraph.sorted (List.ofFn (graph.center.get ∘ σ)) =
        PermutationGraph.sorted graph.center := by
    refine List.Perm.eq_of_pairwise
      (fun a b _ _ hab hba => UInt8.le_antisymm hab hba)
      (List.pairwise_insertionSort _ _)
      (List.pairwise_insertionSort _ _) ?_
    exact ((List.perm_insertionSort _ _).trans hPerm).trans
      (List.perm_insertionSort _ _).symm
  rw [PermutationGraph.validateStart, hValid]
  exact if_neg (not_not_intro hSorted)

theorem replay_one_iff
    {state : List UInt8} :
    (∃ movement, graph.replay state [movement] = .ok true) ↔
      ∃ generator ∈ graph.generators,
        state = inverseNeighbor graph.center generator := by
  constructor
  · rintro ⟨movement, hReplay⟩
    have hStart :
        graph.validateStart state = .ok () := by
      rw [PermutationGraph.replay] at hReplay
      exact (except_bind_eq_ok hReplay).choose_spec.1
    have hLength :=
      (PermutationGraph.validate_of_validateStart hStart).2
    rw [PermutationGraph.replay, hStart, except_ok_bind,
      PermutationGraph.replayMoves] at hReplay
    cases hGenerator : graph.generators[movement]? with
    | none =>
        rw [hGenerator] at hReplay
        cases hReplay
    | some generator =>
        rw [hGenerator] at hReplay
        have hMem := List.mem_of_getElem? hGenerator
        rcases validated hValid hMem with
          ⟨hNodup, hSources, hSize⟩
        refine ⟨generator, hMem, ?_⟩
        rw [← applyGenerator_eq_iff hNodup hSources hSize hLength]
        exact of_decide_eq_true (Except.ok.inj hReplay)
  · rintro ⟨generator, hMem, rfl⟩
    rcases validated hValid hMem with ⟨hNodup, hSources, hSize⟩
    rcases inverseNeighbor_rearranged hNodup hSources hSize with
      ⟨σ, hσ⟩
    rcases List.mem_iff_getElem?.mp hMem with ⟨movement, hAt⟩
    refine ⟨movement, ?_⟩
    have hStart := validateStart_rearranged hValid σ
    rw [← hσ] at hStart
    have hCenter :=
      (applyGenerator_eq_iff hNodup hSources hSize
        (PermutationGraph.validate_of_validateStart hStart).2).mpr
        rfl
    rw [PermutationGraph.replay, hStart, except_ok_bind,
      PermutationGraph.replayMoves, hAt]
    dsimp only
    rw [PermutationGraph.replayMoves, hCenter]
    exact congrArg Except.ok (decide_eq_true rfl)

theorem mem_excludedStates_iff
    {state : List UInt8} :
    state ∈ excludedStates graph ↔
      state = graph.center ∨
        ∃ movement, graph.replay state [movement] = .ok true := by
  rw [excludedStates_eq, mem_insertAll_iff, replay_one_iff hValid,
    List.mem_singleton]

theorem length_excludedStates_le :
    (excludedStates graph).length ≤ arrangements graph.center := by
  refine length_le_arrangements
    (nodup_insertAll _ (List.nodup_singleton _)) ?_
  intro state hMem
  rcases (mem_insertAll_iff _).mp hMem with
    hMem | ⟨generator, hGenerator, rfl⟩
  · rw [List.mem_singleton.mp hMem]
    refine ⟨1, ?_⟩
    rw [Equiv.Perm.coe_one, Function.comp_id, List.ofFn_get]
  · rcases validated hValid hGenerator with
      ⟨hNodup, hSources, hSize⟩
    exact inverseNeighbor_rearranged hNodup hSources hSize

end Excluded

----------------
-- The Ceiling Is Exact
----------------

/- What the caller allows; without a word of it everything. -/
def explicitOrMax (explicit : Option UInt64) : Nat :=
  (explicit.map UInt64.toNat).getD u64Max

/- The states the memory of the cohort and the caller admit. -/
def admittedStates
    (world : UInt32)
    (storage : UInt64)
    (gpuBytes : List UInt64)
    (explicit : Option UInt64) : Nat :=
  min (minBytes gpuBytes * world.toNat / storage.toNat)
    (explicitOrMax explicit)

theorem explicitOrMax_le (explicit : Option UInt64) :
    explicitOrMax explicit ≤ u64Max := by
  cases explicit with
  | none => exact Nat.le_refl _
  | some value => exact Nat.le_pred_of_lt value.toNat_lt

theorem minBytes_lt (gpuBytes : List UInt64) :
    minBytes gpuBytes < 2 ^ 64 := by
  rw [minBytes]
  cases hMin : (gpuBytes.map UInt64.toNat).min? with
  | none => exact Nat.two_pow_pos 64
  | some value =>
      rcases List.mem_map.mp (List.min?_mem hMin) with
        ⟨bytes, _, rfl⟩
      exact bytes.toNat_lt

theorem frontierCeiling_exact
    (graph : PermutationGraph)
    (world : UInt32)
    (storage : UInt64)
    (gpuBytes : List UInt64)
    (explicit : Option UInt64)
    (hValid : graph.validate = .ok ())
    (hFits :
      cohortFits graph world storage gpuBytes explicit = true) :
    let excluded := excludedStates graph
    let cap := admittedStates world storage gpuBytes explicit
    let all := arrangements graph.center
    (∀ state, state ∈ excluded ↔
      state = graph.center ∨
        ∃ movement, graph.replay state [movement] = .ok true) ∧
    excluded.Nodup ∧
    excluded.length ≤ all ∧
    ∃ ceiling divisions,
      frontierCeiling graph world storage gpuBytes explicit =
        .ok (ceiling, divisions) ∧
      ceiling.excludedStates = excluded.length ∧
      ceiling.upperBound = min cap (all - excluded.length) ∧
      (ceiling.multisetBoundClamped = true →
        cap < all - excluded.length) ∧
      ∀ division ∈ divisions, Exact division := by
  intro excluded cap all
  have hCap : min (min
      (minBytes gpuBytes * world.toNat / storage.toNat) u64Max)
        (explicitOrMax explicit) = cap := by
    have hLe := explicitOrMax_le explicit
    show _ = min _ _
    omega
  have hCapLe : cap ≤ u64Max :=
    (Nat.min_le_right _ _).trans (explicitOrMax_le explicit)
  rcases PermutationGraph.size_of_validate hValid with
    ⟨hSome, hSize⟩
  have hStorage : 0 < storage.toNat := by
    simp [cohortFits] at hFits
    omega
  have hTotal :
      minBytes gpuBytes * world.toNat < 2 ^ 128 := by
    have hWorld : world.toNat < 2 ^ 64 :=
      lt_trans world.toNat_lt (by decide)
    calc minBytes gpuBytes * world.toNat
        < 2 ^ 64 * 2 ^ 64 :=
          Nat.mul_lt_mul'' (minBytes_lt gpuBytes) hWorld
      _ = 2 ^ 128 := by rw [← Nat.pow_add]
  have hExcludedLe : excluded.length ≤ 256 := by
    have hInsert :=
      length_insertAll_le (inverseNeighbor graph.center)
        graph.generators [graph.center]
    have hGenerators :=
      PermutationGraph.generators_le_of_validate hValid
    rw [← excludedStates_eq] at hInsert
    exact hInsert.trans (by simp; omega)
  have hExcludedPos : 0 < excluded.length :=
    List.length_pos_of_mem
      ((mem_excludedStates_iff hValid).mpr (Or.inl rfl))
  have hReserved : cap + excluded.length < 2 ^ 128 := by
    rw [u64Max] at hCapLe
    omega
  have hLimit : cap + excluded.length + 1 < 2 ^ 128 := by
    rw [u64Max] at hCapLe
    omega
  have hSmall : 150 * (cap + excluded.length + 1) ≤ 2 ^ 128 := by
    rw [u64Max] at hCapLe
    omega
  have hPlaces :
      0 + ((labelCounts graph.center).filter (0 < ·)).sum ≤
        150 := by
    rw [sum_labelCounts]
    omega
  rcases countLoop_eq (by decide) hSmall _ Nat.one_pos hPlaces
      (by omega) with
    ⟨counted, hCount, hExact, hFree, hClamped⟩
  rw [Nat.one_mul, orderings_labelCounts] at hFree hClamped
  refine ⟨fun _ => mem_excludedStates_iff hValid,
    nodup_insertAll _ (List.nodup_singleton _),
    length_excludedStates_le hValid,
    { upperBound := min (counted.arrangements - excluded.length) cap
      memoryStateCeiling :=
        min (minBytes gpuBytes * world.toNat / storage.toNat) u64Max
      explicitStateCeiling := explicit
      excludedStates := excluded.length
      multisetBoundClamped := counted.clamped
      reachableOrbitVerified := false },
    counted.divisions, ?_, rfl, ?_, ?_, hExact⟩
  · rw [frontierCeiling, hValid]
    dsimp only
    rw [if_neg (not_not_intro hFits), mul_eq hTotal, ok_bind,
      div_eq hStorage, ok_bind]
    rw [show (explicit.map UInt64.toNat).getD u64Max =
        explicitOrMax explicit from rfl, hCap,
      add_eq hReserved, ok_bind, add_eq hLimit, ok_bind, hCount]
    rfl
  · show min (counted.arrangements - excluded.length) cap =
      min cap (arrangements graph.center - excluded.length)
    cases hFlag : counted.clamped with
    | false =>
        rw [hFree hFlag, Nat.min_comm]
    | true =>
        rcases hClamped hFlag with ⟨hAt, hReached⟩
        rw [hAt]
        omega
  · intro hFlag
    have hReached := (hClamped hFlag).2
    show cap < arrangements graph.center - excluded.length
    omega

/-
  A graph with two labels, one generator of which is there
  twice.
-/
def pairedGraph : PermutationGraph :=
  { center := [0, 0, 1, 1],
    generators := [[1, 0, 2, 3], [2, 1, 0, 3], [2, 1, 0, 3]] }

/- Six arrangements; the center and one neighbor are no
frontier. -/
theorem frontierCeiling_exact_paired :
    pairedGraph.validate = .ok () ∧
      cohortFits pairedGraph 2 16 [1024, 2048] none = true ∧
      (excludedStates pairedGraph).length = 2 ∧
      ∃ ceiling divisions,
        frontierCeiling pairedGraph 2 16 [1024, 2048] none =
          .ok (ceiling, divisions) ∧
        ceiling.upperBound = 4 := by
  have hValid : pairedGraph.validate = .ok () := by decide
  have hFits :
      cohortFits pairedGraph 2 16 [1024, 2048] none = true := by
    decide
  have hTwo : (excludedStates pairedGraph).length = 2 := by decide
  have hAll : arrangements pairedGraph.center = 6 := by decide
  rcases frontierCeiling_exact pairedGraph 2 16 [1024, 2048] none
      hValid hFits with
    ⟨_, _, _, ceiling, divisions, hRun, _, hBound, _⟩
  refine ⟨hValid, hFits, hTwo, ceiling, divisions, hRun, ?_⟩
  rw [hBound, hTwo, hAll]
  decide

end Calibration

end BeamSearch
