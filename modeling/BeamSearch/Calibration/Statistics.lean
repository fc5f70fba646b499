import BeamSearch.Calibration.Plans
import BeamSearch.Lib.DoubleArithmetic

/-
  The statistical selection of a profile.

  A profile is estimated by the median of its measured seconds
  per parent, with an interval from a seeded bootstrap. Another
  profile replaces the baseline only if the two intervals are
  apart by more than a margin.

  Main declarations:
    * `Measurement`, `Estimate`
    * `estimate`
    * `select`
    * `estimate_congr`
    * `estimate_of_select`
-/

namespace BeamSearch

/- What an error of the planning crate prints. -/
def ContractError.text : ContractError → String
  | .invalid name => "invalid " ++ name
  | .overflow name => name ++ " size overflow"
  | .capacity name required available =>
      name ++ " capacity exceeded: required=" ++
        Text.numeral required ++ " available=" ++
          Text.numeral available

namespace Calibration

open Text (Double ofDecimal)

/- A map from profiles to why they were rejected. -/
abbrev Reasons : Type :=
  Environment

/- One repetition of a profile. -/
structure Measurement where
  profile : String
  parents : Nat
  secondsByRank : List Double
  correctnessPassed : Bool
  memoryAdmitted : Bool
  throttled : Bool
deriving DecidableEq, Repr

namespace Measurement

/- The slowest rank, by the parent. -/
def secondsPerParent
    (row : Measurement) : Except ContractError Double :=
  if row.parents = 0 ∨ row.secondsByRank = [] ∨
      row.secondsByRank.any
        (fun v => !v.isFinite || Double.lessEqual v Double.zero)
  then
    .error (.invalid "parent count or rank timing")
  else
    .ok
      (row.secondsByRank.foldl Double.max Double.zero /
        Double.ofNat row.parents)

/- A row that may be compared. -/
def validate (row : Measurement) : Except ContractError Unit := do
  let _ ← row.secondsPerParent
  if !row.correctnessPassed || !row.memoryAdmitted ||
      row.throttled then
    .error (.invalid "incorrect, unadmitted or throttled profile")
  else
    .ok ()

/- What rows must share to be compared. -/
def cohort (row : Measurement) : Nat × Nat :=
  (row.parents, row.secondsByRank.length)

end Measurement

/- The estimate of a profile. -/
structure Estimate where
  profile : String
  median : Double
  low : Double
  high : Double
  relativeMad : Double
  repeats : Nat
deriving DecidableEq, Repr

----------------
-- Medians And Intervals
----------------

/- One half. -/
def half : Double :=
  ofDecimal false 1 2

/- The middle of sorted values, or the mean of the two there. -/
def middle (values : List Double) : Double :=
  let at' := fun i => (values[i]?).getD .nan
  let middle' := values.length / 2
  if values.length % 2 = 0 then
    at' (middle' - 1) * half + at' middle' * half
  else at' middle'

/- The median of some values. -/
def median (values : List Double) : Double :=
  middle (Double.sort values)

/- The next number of the generator and its next state. -/
def random (state : UInt64) : UInt64 × UInt64 :=
  let state := state + 0x9e3779b97f4a7c15
  let z := (state ^^^ (state >>> 30)) * 0xbf58476d1ce4e5b9
  let z := (z ^^^ (z >>> 27)) * 0x94d049bb133111eb
  (z ^^^ (z >>> 31), state)

/- So many values, each picked at random. -/
def resample
    (values : List Double) :
    Nat → UInt64 → List Double × UInt64
  | 0, state => ([], state)
  | n + 1, state =>
      let drawn := random state
      let index := drawn.1.toNat * values.length / 2 ^ 64
      let rest := resample values n drawn.2
      ((values[index]?).getD .nan :: rest.1, rest.2)

/-
  The medians of resampled values; the generator's state goes
  through.
-/
def bootstrap
    (values : List Double) : Nat → UInt64 → List Double
  | 0, _ => []
  | n + 1, state =>
      let sample := resample values values.length state
      median sample.1 :: bootstrap values n sample.2

/- The interval that holds 95 of 100 medians. -/
def interval (values : List Double) : Double × Double :=
  let medians := Double.sort (bootstrap values 2000 0)
  ((medians[50]?).getD .nan, (medians[1950]?).getD .nan)

/- At least five values are summarized. -/
def summarize
    (profile : String)
    (values : List Double) : Except ContractError Estimate :=
  if values.length < 5 then
    .error (.invalid "insufficient measured repeats")
  else
    let values := Double.sort values
    let center := middle values
    let deviations :=
      values.map fun v => Double.abs (v - center)
    let relativeMad := median deviations / center
    if !relativeMad.isFinite ||
        Double.less (ofDecimal false 10 100) relativeMad then
      .error (.invalid "unstable timing samples")
    else
      let bounds := interval values
      .ok
        { profile := profile
          median := center
          low := bounds.1
          high := bounds.2
          relativeMad := relativeMad
          repeats := values.length }

----------------
-- Estimates
----------------

/- A valid row of the same workload counts with its seconds. -/
def summand
    (first row : Measurement) : Except ContractError Double := do
  row.validate
  if row.cohort ≠ first.cohort then
    .error (.invalid "mixed workload or rank cohort")
  else
    row.secondsPerParent

/- The rows of one profile. -/
def measurementsOf
    (profile : String)
    (samples : List Measurement) : List Measurement :=
  samples.filter fun s => s.profile == profile

/- The estimate of a profile, from rows that may be compared. -/
def estimate
    (profile : String)
    (samples : List Measurement) :
    Except ContractError Estimate :=
  match measurementsOf profile samples with
  | [] => .error (.invalid "no profile measurements")
  | first :: rest => do
      let values ← (first :: rest).mapM (summand first)
      summarize profile values

----------------
-- Selection
----------------

/- The measured profiles in order. -/
def profileNames (samples : List Measurement) : List String :=
  (samples.map Measurement.profile).dedup.insertionSort (· ≤ ·)

/- Keep the estimate of a profile, or why it has none. -/
def judge
    (samples : List Measurement)
    (baseline : String)
    (judged : List Estimate × Reasons)
    (name : String) : List Estimate × Reasons :=
  if name = baseline then judged
  else
    match estimate name samples with
    | .ok value => (judged.1 ++ [value], judged.2)
    | .error error =>
        (judged.1, judged.2.insert name error.text)

/- The estimates by their median, then by name. -/
def byMedian (estimates : List Estimate) : List Estimate :=
  estimates.insertionSort fun a b =>
    Double.place a.median < Double.place b.median ∨
      Double.place a.median = Double.place b.median ∧
        a.profile ≤ b.profile

/- The first candidate apart from the baseline by the margin. -/
def promote
    (minImprovement : Double)
    (chosen : Estimate) :
    List Estimate → Reasons → Estimate × Reasons
  | [], rejected => (chosen, rejected)
  | candidate :: rest, rejected =>
      if Double.less candidate.high
          (chosen.low * (Double.ofNat 1 - minImprovement)) then
        (candidate, rejected)
      else
        promote minImprovement chosen rest
          (rejected.insert candidate.profile
            "no statistically separated material gain")

/-
  The best profile, if it is better by enough, and why the
  others are not.
-/
def select
    (samples : List Measurement)
    (baseline : String)
    (minImprovement : Double) :
    Except ContractError (Estimate × Reasons) :=
  if !minImprovement.isFinite ||
      !(Double.lessEqual Double.zero minImprovement &&
        Double.less minImprovement (Double.ofNat 1)) then
    .error (.invalid "improvement threshold")
  else if
      (samples.map Measurement.cohort).dedup.length ≠ 1 then
    .error
      (.invalid
        "all candidates must share workload and rank cohort")
  else do
    let chosen ← estimate baseline samples
    let judged :=
      (profileNames samples).foldl (judge samples baseline)
        ([], [])
    .ok
      (promote minImprovement chosen (byMedian judged.1)
        judged.2)

----------------
-- What An Estimate Says
----------------

theorem throttled_of_validate
    {row : Measurement}
    (hValid : row.validate = .ok ()) :
    row.throttled = false := by
  rw [Measurement.validate] at hValid
  rcases except_bind_eq_ok hValid with ⟨_, _, hFlags⟩
  cases hThrottled : row.throttled with
  | false => rfl
  | true => simp [hThrottled] at hFlags

theorem validate_of_summand
    {first row : Measurement}
    {value : Double}
    (hSummand : summand first row = .ok value) :
    row.validate = .ok () := by
  rw [summand] at hSummand
  rcases except_bind_eq_ok hSummand with ⟨_, hValid, _⟩
  exact hValid

theorem profile_of_summarize
    {profile : String}
    {values : List Double}
    {value : Estimate}
    (hSummary : summarize profile values = .ok value) :
    value.profile = profile := by
  rw [summarize] at hSummary
  split_ifs at hSummary with hFew
  dsimp only at hSummary
  split_ifs at hSummary with hUnstable
  have hFields := Except.ok.inj hSummary
  rw [← hFields]

/- An estimate looks at the rows of its own profile only. -/
theorem estimate_congr
    {profile : String}
    {samples samples' : List Measurement}
    (hSame :
      measurementsOf profile samples =
        measurementsOf profile samples') :
    estimate profile samples = estimate profile samples' := by
  rw [estimate, estimate, hSame]

section Estimated

variable {profile : String}
variable {samples : List Measurement}
variable {value : Estimate}

theorem estimate_eq_ok
    (hEstimate : estimate profile samples = .ok value) :
    ∃ first rest values,
      measurementsOf profile samples = first :: rest ∧
        (first :: rest).mapM (summand first) = .ok values ∧
          summarize profile values = .ok value := by
  rw [estimate] at hEstimate
  cases hRows : measurementsOf profile samples with
  | nil =>
      rw [hRows] at hEstimate
      cases hEstimate
  | cons first rest =>
      rw [hRows] at hEstimate
      rcases except_bind_eq_ok hEstimate with
        ⟨values, hValues, hSummary⟩
      exact ⟨first, rest, values, rfl, hValues, hSummary⟩

theorem profile_of_estimate
    (hEstimate : estimate profile samples = .ok value) :
    value.profile = profile := by
  rcases estimate_eq_ok hEstimate with
    ⟨_, _, _, _, _, hSummary⟩
  exact profile_of_summarize hSummary

theorem measured_of_estimate
    (hEstimate : estimate profile samples = .ok value) :
    ∃ row ∈ samples, row.profile = profile := by
  rcases estimate_eq_ok hEstimate with
    ⟨first, rest, _, hRows, _, _⟩
  have hFirst : first ∈ measurementsOf profile samples := by
    rw [hRows]
    exact List.mem_cons_self
  rw [measurementsOf, List.mem_filter] at hFirst
  exact ⟨first, hFirst.1, beq_iff_eq.mp hFirst.2⟩

theorem validate_of_estimate
    (hEstimate : estimate profile samples = .ok value)
    {row : Measurement}
    (hRow : row ∈ samples)
    (hProfile : row.profile = profile) :
    row.validate = .ok () := by
  rcases estimate_eq_ok hEstimate with
    ⟨first, rest, values, hRows, hValues, _⟩
  have hMem : row ∈ first :: rest := by
    rw [← hRows, measurementsOf, List.mem_filter]
    exact ⟨hRow, beq_iff_eq.mpr hProfile⟩
  rcases mapM_cases (summand first) (first :: rest) with
    ⟨_, _, error, _, hFail⟩ | hAll
  · rw [hFail] at hValues
    cases hValues
  · rcases hAll row hMem with ⟨_, hSummand⟩
    exact validate_of_summand hSummand

end Estimated

----------------
-- What A Selection Says
----------------

/- The estimates are those of the measured profiles. -/
def Estimated
    (samples : List Measurement)
    (estimates : List Estimate) : Prop :=
  ∀ value ∈ estimates,
    estimate value.profile samples = .ok value

theorem estimated_judge
    {samples : List Measurement}
    {judged : List Estimate × Reasons}
    (baseline name : String)
    (hJudged : Estimated samples judged.1) :
    Estimated samples
      (judge samples baseline judged name).1 := by
  rw [judge]
  split_ifs with hBaseline
  · exact hJudged
  · cases hEstimate : estimate name samples with
    | error error => exact hJudged
    | ok value =>
        intro other hOther
        rcases List.mem_append.mp hOther with hOther | hOther
        · exact hJudged other hOther
        · cases List.mem_singleton.mp hOther
          rw [profile_of_estimate hEstimate]
          exact hEstimate

theorem estimated_foldl_judge
    {samples : List Measurement}
    (baseline : String)
    (names : List String)
    {judged : List Estimate × Reasons}
    (hJudged : Estimated samples judged.1) :
    Estimated samples
      (names.foldl (judge samples baseline) judged).1 := by
  induction names generalizing judged with
  | nil => exact hJudged
  | cons name names ih =>
      exact ih (estimated_judge baseline name hJudged)

theorem mem_byMedian
    {value : Estimate}
    {estimates : List Estimate} :
    value ∈ byMedian estimates ↔ value ∈ estimates :=
  List.mem_insertionSort _

theorem promote_cases
    (minImprovement : Double)
    (chosen : Estimate)
    (candidates : List Estimate)
    (rejected : Reasons) :
    (promote minImprovement chosen candidates rejected).1 =
        chosen ∨
      (promote minImprovement chosen candidates rejected).1 ∈
        candidates := by
  induction candidates generalizing rejected with
  | nil => exact Or.inl rfl
  | cons candidate rest ih =>
      rw [promote]
      split_ifs with hApart
      · exact Or.inr List.mem_cons_self
      · rcases ih _ with hChosen | hMem
        · exact Or.inl hChosen
        · exact Or.inr (List.mem_cons_of_mem _ hMem)

/- What is selected is the estimate of its own profile. -/
theorem estimate_of_select
    {samples : List Measurement}
    {baseline : String}
    {minImprovement : Double}
    {winner : Estimate}
    {rejected : Reasons}
    (hSelect :
      select samples baseline minImprovement =
        .ok (winner, rejected)) :
    estimate winner.profile samples = .ok winner := by
  rw [select] at hSelect
  split_ifs at hSelect
  rcases except_bind_eq_ok hSelect with
    ⟨chosen, hChosen, hPromote⟩
  have hNone : Estimated samples ([], ([] : Reasons)).1 :=
    fun value hMem => absurd hMem List.not_mem_nil
  have hJudged :=
    estimated_foldl_judge baseline (profileNames samples) hNone
  have hWinner := congrArg Prod.fst (Except.ok.inj hPromote)
  dsimp only at hWinner
  rcases promote_cases minImprovement chosen _ _ with
    hSame | hMem
  · rw [← hWinner, hSame, profile_of_estimate hChosen]
    exact hChosen
  · rw [← hWinner]
    exact hJudged _ (mem_byMedian.mp hMem)

end Calibration

end BeamSearch
