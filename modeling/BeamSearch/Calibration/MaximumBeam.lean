import BeamSearch.Calibration.Capacity

/-
  The largest beam over all shard counts.

  Every shard count searches under its own frozen profile, first
  with the minimum flush and then, if the search is a working
  one, with a flush that holds an admitted survivor slab. A
  rejected search does not end the others.

  Main declarations:
    * `Discovery`
    * `searchShards`
    * `discover`
    * `capacityDiscovery`
-/

namespace BeamSearch

open Hoare

namespace Calibration

----------------
-- Profiles
----------------

/- What the discovery is asked for. -/
structure MaximumConfig where
  upperBound : Nat
  alignment : Nat
  world : Nat
  outer : Nat
  minimumFlush : Nat
deriving DecidableEq, Repr

namespace MaximumConfig

/- The least beam that is searched. -/
def minimum (config : MaximumConfig) : Nat :=
  config.alignment * 8

/- The beams of a shard count are multiples of its stride. -/
def stride (config : MaximumConfig) (shards : Nat) : Nat :=
  config.world * shards * config.alignment

/- The profile that takes the least memory. -/
def memoryProfile
    (config : MaximumConfig)
    (shards : Nat) : Environment :=
  [("BEAM_B_MICRO", toString config.outer),
    ("BEAM_SHARD_COUNT", toString shards),
    ("BEAM_STREAM3_RING_SLOTS", "2"),
    ("BEAM_STREAM4_ACTIVE_SORT_SLOTS", "1"),
    ("BEAM_STREAM4_BATCH_CANDIDATES",
      toString config.minimum)]

/-
  A flush that holds the largest admitted survivor slab. An
  explicit larger arrival batch is a floor.
-/
def workingFlush
    (config : MaximumConfig)
    (plans : List Json) : Except RuntimeError Nat :=
  match plans.mapM fun plan =>
      (Json.index "SHARD_CAPACITY_CANDIDATES" plan).asU64 with
  | none => .error (.message "missing native shard capacity")
  | some capacities =>
      let capacity := capacities.foldl max 0
      let flush :=
        (capacity + config.alignment - 1) / config.alignment *
          config.alignment
      if capacity = 0 then
        .error (.message "zero native shard capacity")
      else if flush ≥ 2 ^ 64 then
        .error (.message "working flush overflow")
      else
        .ok (max (max flush config.minimum) config.minimumFlush)

/- The profile under which a shard count's beam is reported. -/
def finalProfile
    (config : MaximumConfig)
    (working : Bool)
    (shards : Nat)
    (plans : List Json) : Except RuntimeError Environment :=
  if working then
    match config.workingFlush plans with
    | .error error => .error error
    | .ok flush =>
        .ok
          ((config.memoryProfile shards).insert
            "BEAM_STREAM4_BATCH_CANDIDATES" (toString flush))
  else
    .ok (config.memoryProfile shards)

end MaximumConfig

----------------
-- Discovery
----------------

/- A search that ended without a beam, and why. -/
structure RejectedSearch where
  shards : Nat
  phase : String
  reason : String
deriving DecidableEq, Repr

/- What the searches have found so far. -/
structure Progress where
  best : Option CapacityResult
  memoryBest : Option CapacityResult
  complete : Bool
  rejected : List RejectedSearch

/- What the discovery returns. -/
structure Discovery where
  capacity : CapacityResult
  memoryCeiling : CapacityResult
  rejected : List RejectedSearch
  capacityScope : String
  flushPolicy : String

/- The greater of two results; at a tie the earlier one. -/
def larger
    (result : CapacityResult)
    (best : Option CapacityResult) : Option CapacityResult :=
  if best.all fun r =>
      decide (result.effectiveBeam > r.effectiveBeam) then
    some result
  else
    best

section Search

variable (clock : Nat → Nat)
variable (deadline : Nat)
variable (admission : Admission)

/- Search again with the working flush, below the first beam. -/
def searchFinal
    (config : MaximumConfig)
    (working : Bool)
    (shards : Nat)
    (memory : CapacityResult) :
    Timed (Except String CapacityResult) :=
  if working then
    match config.finalProfile working shards memory.plans with
    | .error error => throw error
    | .ok profile =>
        catchRejection
          (findCapacity clock deadline admission [profile]
            memory.effectiveBeam (config.stride shards))
  else
    pure (.ok memory)

/- The shard counts in turn, until the deadline. -/
def searchShards
    (config : MaximumConfig)
    (working : Bool) :
    List Nat → Progress → Timed Progress
  | [], progress => pure progress
  | shards :: rest, progress => do
      let time ← now clock
      if time ≥ deadline then
        pure { progress with complete := false }
      else if config.stride shards > config.upperBound then
        searchShards config working rest progress
      else do
        let memory ←
          catchRejection
            (findCapacity clock deadline admission
              [config.memoryProfile shards] config.upperBound
              (config.stride shards))
        match memory with
        | .error reason =>
            searchShards config working rest
              { progress with
                rejected :=
                  progress.rejected ++
                    [⟨shards, "memory", reason⟩] }
        | .ok memory => do
            let progress : Progress :=
              { progress with
                complete :=
                  progress.complete && memory.searchComplete
                memoryBest := larger memory progress.memoryBest }
            let final ←
              searchFinal clock deadline admission config
                working shards memory
            match final with
            | .error reason =>
                searchShards config working rest
                  { progress with
                    rejected :=
                      progress.rejected ++
                        [⟨shards, "working", reason⟩] }
            | .ok result =>
                let progress : Progress :=
                  { progress with
                    complete :=
                      progress.complete && result.searchComplete
                    best := larger result progress.best }
                if progress.complete then
                  searchShards config working rest progress
                else
                  pure progress

/-
  The discovery over the shard counts from 1 to 128. A working
  discovery fixes its flush by the first beam and searches
  again.
-/
def discover
    (config : MaximumConfig)
    (working : Bool) : Timed Discovery :=
  if config.alignment = 0 ∨ config.world = 0 ∨
      config.outer = 0 then
    throw (.message "invalid maximum frontier search geometry")
  else if config.minimum ≥ 2 ^ 64 then
    throw (.message "flush overflow")
  else do
    let before ← get
    let found ←
      searchShards clock deadline admission config working
        (List.range' 1 128)
        { best := none
          memoryBest := none
          complete := true
          rejected := [] }
    let after ← get
    match found.best, found.memoryBest with
    | none, _ =>
        throw
          (.capacityRejected
            "no model/GPU frontier was admitted within the capacity budget")
    | some _, none => throw (.panicked "memory_best")
    | some capacity, some ceiling =>
        pure
          { capacity :=
              { capacity with
                probes := after.asked - before.asked
                searchComplete := found.complete }
            memoryCeiling := ceiling
            rejected := found.rejected
            capacityScope :=
              "native memory admission; full-step verification pending"
            flushPolicy :=
              if working then
                "at least one admitted survivor slab and explicit arrival-batch floor"
              else
                "minimum allocation flush" }

end Search

----------------
-- What A Discovery Is About
----------------

/- The beams of a shard count that the minimum flush admits. -/
def memoryBeams
    (admission : Admission)
    (config : MaximumConfig)
    (shards : Nat) : Set Nat :=
  admittedBeams admission config.upperBound
    (config.stride shards) (config.memoryProfile shards)

/-
  The beams of a shard count that its final profile admits, up
  to the beam whose plans fixed that profile.
-/
def finalBeams
    (admission : Admission)
    (config : MaximumConfig)
    (working : Bool)
    (shards : Nat) : Set Nat :=
  {beam |
    ∃ ceiling plans profile,
      IsGreatest (memoryBeams admission config shards)
          ceiling ∧
        admission ceiling (config.memoryProfile shards) =
            .ok plans ∧
        config.finalProfile working shards plans =
            .ok profile ∧
        beam ∈
          admittedBeams admission ceiling
            (config.stride shards) profile}

/- The beams of the shard counts whose stride fits the bound. -/
def overShards
    (config : MaximumConfig)
    (beams : Nat → Set Nat)
    (counts : Set Nat) : Set Nat :=
  {beam |
    ∃ shards ∈ counts,
      config.stride shards ≤ config.upperBound ∧
        beam ∈ beams shards}

/- The shard counts that may be asked for. -/
def shardCounts : Set Nat :=
  {shards | 1 ≤ shards ∧ shards ≤ 128}

/- A kept result is the greatest of these beams. -/
def Peak
    (beams : Set Nat)
    (best : Option CapacityResult) : Prop :=
  match best with
  | none => beams = ∅
  | some result => IsGreatest beams result.effectiveBeam

theorem Peak.larger
    {beams more : Set Nat}
    {result : CapacityResult}
    {best : Option CapacityResult}
    (hPeak : Peak beams best)
    (hGreatest : IsGreatest more result.effectiveBeam) :
    Peak (beams ∪ more) (larger result best) := by
  unfold Calibration.larger
  cases best with
  | none =>
      rw [Peak] at hPeak
      subst hPeak
      rw [Set.empty_union]
      exact hGreatest
  | some kept =>
      have hUnion := IsGreatest.union hPeak hGreatest
      simp only [Option.all_some, decide_eq_true_eq]
      split_ifs with hMore
      · rwa [max_eq_right (Nat.le_of_lt hMore)] at hUnion
      · rwa [max_eq_left (Nat.le_of_not_lt hMore)] at hUnion

theorem Peak.skip
    {beams more : Set Nat}
    {best : Option CapacityResult}
    (hPeak : Peak beams best)
    (hNone : more = ∅) :
    Peak (beams ∪ more) best := by
  rw [hNone, Set.union_empty]
  exact hPeak

theorem overShards_insert
    (config : MaximumConfig)
    (beams : Nat → Set Nat)
    (seen : List Nat)
    {shards : Nat}
    (hStride : config.stride shards ≤ config.upperBound) :
    overShards config beams {s | s ∈ seen ++ [shards]} =
      overShards config beams {s | s ∈ seen} ∪ beams shards := by
  ext beam
  simp only [overShards, Set.mem_ofPred_eq, List.mem_append,
    List.mem_singleton, Set.mem_union]
  constructor
  · rintro ⟨s, hSeen | rfl, hFits, hBeam⟩
    · exact .inl ⟨s, hSeen, hFits, hBeam⟩
    · exact .inr hBeam
  · rintro (⟨s, hSeen, hFits, hBeam⟩ | hBeam)
    · exact ⟨s, .inl hSeen, hFits, hBeam⟩
    · exact ⟨shards, .inr rfl, hStride, hBeam⟩

theorem overShards_skip
    (config : MaximumConfig)
    (beams : Nat → Set Nat)
    (seen : List Nat)
    {shards : Nat}
    (hStride : config.upperBound < config.stride shards) :
    overShards config beams {s | s ∈ seen ++ [shards]} =
      overShards config beams {s | s ∈ seen} := by
  ext beam
  simp only [overShards, Set.mem_ofPred_eq, List.mem_append,
    List.mem_singleton]
  constructor
  · rintro ⟨s, hSeen | rfl, hFits, hBeam⟩
    · exact ⟨s, hSeen, hFits, hBeam⟩
    · omega
  · rintro ⟨s, hSeen, hFits, hBeam⟩
    exact ⟨s, .inl hSeen, hFits, hBeam⟩

section Correctness

variable {clock : Nat → Nat}
variable {deadline since : Nat}
variable {admission : Admission}
variable {limit : Environment → Nat}

variable {machine : Machine} {shards : Nat} {progress : Progress} {seen : List Nat}

theorem Late.earlier
    {first : Nat}
    (hLate : Late clock deadline first machine)
    (hLe : since ≤ first) :
    Late clock deadline since machine := by
  rcases hLate with ⟨i, hSince, hLt, hTime⟩
  exact ⟨i, hLe.trans hSince, hLt, hTime⟩

----------------
-- One Search
----------------

/-
  What a search of one profile says. A rejection may also mean
  that the deadline cut the search before its first acceptance.
-/
def Outcome
    (clock : Nat → Nat)
    (deadline since : Nat)
    (admission : Admission)
    (upperBound alignment : Nat)
    (profile : Environment)
    (outcome : Except String CapacityResult)
    (machine : Machine) : Prop :=
  match outcome with
  | .error _ =>
      Late clock deadline since machine ∨
        admittedBeams admission upperBound alignment profile =
          ∅
  | .ok result =>
      result.effectiveBeam ∈
          admittedBeams admission upperBound alignment
            profile ∧
        admission result.effectiveBeam profile =
            .ok result.plans ∧
        (result.searchComplete = true →
          IsGreatest
            (admittedBeams admission upperBound alignment
              profile)
            result.effectiveBeam)

theorem catch_findCapacity
    (hMonotone : MonotoneAdmission admission limit)
    {upperBound alignment : Nat}
    {profile : Environment}
    {before : Machine}
    (hSince : since ≤ before.readings) :
    Triple (fun machine => machine = before)
      (catchRejection
        (findCapacity clock deadline admission [profile]
          upperBound alignment))
      (fun outcome machine =>
        before.readings ≤ machine.readings ∧
          Outcome clock deadline since admission upperBound
            alignment profile outcome machine)
      (fun _ _ => True) := by
  intro machine hSame
  subst hSame
  have hRun :=
    @findCapacity_triple clock deadline machine.readings
      admission limit upperBound alignment [profile] hMonotone
      machine le_rfl
  unfold catchRejection
  cases hResult :
      findCapacity clock deadline admission [profile] upperBound
        alignment machine with
  | ok result after =>
      rw [hResult] at hRun
      rcases hRun with
        ⟨hLe, hMem, hAdmitted, hAnswer, hLargest, -⟩
      rw [List.mem_singleton] at hMem
      rw [hMem] at hAdmitted hAnswer
      refine ⟨hLe, hAdmitted, hAnswer, fun hComplete => ?_⟩
      exact ⟨hAdmitted, fun beam hBeam =>
        hLargest hComplete profile
          (List.mem_singleton.mpr rfl) beam hBeam⟩
  | error error after =>
      rw [hResult] at hRun
      cases error with
      | capacityRejected reason =>
          rcases hRun reason rfl with ⟨hLe, hNone⟩
          refine ⟨hLe, ?_⟩
          rcases hNone with hLate | hNone
          · exact .inl (hLate.earlier hSince)
          · exact .inr (hNone profile (List.mem_singleton.mpr rfl))
      | message text => trivial
      | json => trivial
      | contract error => trivial
      | external text => trivial
      | panicked text => trivial

----------------
-- The Loop Over Shard Counts
----------------

variable {config : MaximumConfig}
variable {working : Bool}

/- The result beside the first search, under the final profile. -/
def FinalOutcome
    (clock : Nat → Nat)
    (deadline since : Nat)
    (admission : Admission)
    (config : MaximumConfig)
    (working : Bool)
    (shards : Nat)
    (memory : CapacityResult)
    (outcome : Except String CapacityResult)
    (machine : Machine) : Prop :=
  ∃ profile,
    config.finalProfile working shards memory.plans =
        .ok profile ∧
      Outcome clock deadline since admission
        memory.effectiveBeam (config.stride shards) profile
        outcome machine

theorem searchFinal_triple
    (hMonotone : MonotoneAdmission admission limit)
    {memory : CapacityResult}
    {before : Machine}
    (hSince : since ≤ before.readings)
    (hMemory :
      Outcome clock deadline since admission config.upperBound
        (config.stride shards) (config.memoryProfile shards)
        (.ok memory) before) :
    Triple (fun machine => machine = before)
      (searchFinal clock deadline admission config working
        shards memory)
      (fun outcome machine =>
        before.readings ≤ machine.readings ∧
          FinalOutcome clock deadline since admission config
            working shards memory outcome machine)
      (fun _ _ => True) := by
  unfold searchFinal
  cases working with
  | false =>
      apply Triple.value
      intro machine hSame
      subst hSame
      rcases hMemory with ⟨hAdmitted, hAnswer, -⟩
      rcases hAdmitted with ⟨hPos, hDvd, -, hPlans⟩
      refine ⟨le_rfl, config.memoryProfile shards, rfl,
        ⟨hPos, hDvd, le_rfl, hPlans⟩, hAnswer, fun _ => ?_⟩
      refine ⟨⟨hPos, hDvd, le_rfl, hPlans⟩, ?_⟩
      intro beam hBeam
      exact hBeam.2.2.1
  | true =>
      cases hProfile :
          config.finalProfile true shards memory.plans with
      | error error =>
          exact Triple.stop fun _ _ => trivial
      | ok profile =>
          refine (catch_findCapacity hMonotone hSince).post ?_
          rintro outcome machine ⟨hLe, hOutcome⟩
          exact ⟨hLe, profile, hProfile, hOutcome⟩

/- The final beams of a shard count once its ceiling is known. -/
theorem finalBeams_eq
    {memory : CapacityResult}
    {profile : Environment}
    (hGreatest :
      IsGreatest (memoryBeams admission config shards)
        memory.effectiveBeam)
    (hAnswer :
      admission memory.effectiveBeam
          (config.memoryProfile shards) =
        .ok memory.plans)
    (hProfile :
      config.finalProfile working shards memory.plans =
        .ok profile) :
    finalBeams admission config working shards =
      admittedBeams admission memory.effectiveBeam
        (config.stride shards) profile := by
  ext beam
  constructor
  · rintro ⟨ceiling, plans, other, hCeiling, hPlans, hOther,
      hBeam⟩
    have hSame := hCeiling.unique hGreatest
    subst hSame
    rw [hAnswer] at hPlans
    injection hPlans with hPlans
    subst hPlans
    rw [hProfile] at hOther
    injection hOther with hOther
    subst hOther
    exact hBeam
  · intro hBeam
    exact ⟨memory.effectiveBeam, memory.plans, profile,
      hGreatest, hAnswer, hProfile, hBeam⟩

theorem finalBeams_eq_empty
    (hNone : memoryBeams admission config shards = ∅) :
    finalBeams admission config working shards = ∅ := by
  rw [Set.eq_empty_iff_forall_notMem]
  rintro beam ⟨ceiling, -, -, hCeiling, -⟩
  have hMem := hCeiling.1
  rw [hNone] at hMem
  exact hMem

/- No beam found is larger than the largest first beam. -/
def Below (progress : Progress) : Prop :=
  ∀ result, progress.best = some result →
    ∃ ceiling,
      progress.memoryBest = some ceiling ∧
        result.effectiveBeam ≤ ceiling.effectiveBeam

/- The beams kept are the greatest of the shard counts seen. -/
def ExactMaximum
    (admission : Admission)
    (config : MaximumConfig)
    (working : Bool)
    (seen : List Nat)
    (progress : Progress) : Prop :=
  Peak
      (overShards config (finalBeams admission config working)
        {s | s ∈ seen})
      progress.best ∧
    Peak
      (overShards config (memoryBeams admission config)
        {s | s ∈ seen})
      progress.memoryBest

/- The search of the last shard count was rejected late. -/
def RejectedLate
    (clock : Nat → Nat)
    (deadline since : Nat)
    (seen : List Nat)
    (progress : Progress)
    (machine : Machine) : Prop :=
  Late clock deadline since machine ∧
    ∃ entry ∈ progress.rejected,
      seen.getLast? = some entry.shards

/-
  A complete search is exact, unless its last rejection is that
  of the deadline: only the next reading of the clock notices it.
-/
def Discovered
    (clock : Nat → Nat)
    (deadline since : Nat)
    (admission : Admission)
    (config : MaximumConfig)
    (working : Bool)
    (seen : List Nat)
    (progress : Progress)
    (machine : Machine) : Prop :=
  since ≤ machine.readings ∧
    Below progress ∧
    (progress.complete = true →
      ExactMaximum admission config working seen progress ∨
        RejectedLate clock deadline since seen progress
          machine)

theorem larger_eq_some
    (result : CapacityResult)
    (best : Option CapacityResult) :
    ∃ kept,
      larger result best = some kept ∧
        result.effectiveBeam ≤ kept.effectiveBeam ∧
          ∀ other, best = some other →
            other.effectiveBeam ≤ kept.effectiveBeam := by
  unfold larger
  cases best with
  | none =>
      exact ⟨result, rfl, le_rfl, fun other hOther =>
        nomatch hOther⟩
  | some kept =>
      simp only [Option.all_some, decide_eq_true_eq]
      split_ifs with hMore
      · refine ⟨result, rfl, le_rfl, ?_⟩
        rintro other ⟨rfl⟩
        exact Nat.le_of_lt hMore
      · refine ⟨kept, rfl, Nat.le_of_not_lt hMore, ?_⟩
        rintro other ⟨rfl⟩
        exact le_rfl

theorem larger_eq_or
    (result : CapacityResult)
    (best : Option CapacityResult) :
    larger result best = some result ∨
      larger result best = best := by
  unfold larger
  split_ifs
  · exact .inl rfl
  · exact .inr rfl

theorem Below.memory
    (hBelow : Below progress)
    (memory : CapacityResult)
    (complete : Bool)
    (rejected : List RejectedSearch) :
    Below
      { progress with
        complete := complete
        rejected := rejected
        memoryBest := larger memory progress.memoryBest } := by
  intro result hResult
  rcases hBelow result hResult with ⟨ceiling, hCeiling, hLe⟩
  rcases larger_eq_some memory progress.memoryBest with
    ⟨kept, hKept, -, hOthers⟩
  exact ⟨kept, hKept, hLe.trans (hOthers ceiling hCeiling)⟩

theorem Below.final
    (hBelow : Below progress)
    {memory result : CapacityResult}
    {complete : Bool}
    (hLe : result.effectiveBeam ≤ memory.effectiveBeam) :
    Below
      { progress with
        complete := complete
        memoryBest := larger memory progress.memoryBest
        best := larger result progress.best } := by
  rcases larger_eq_or result progress.best with hSame | hSame
  · intro other hOther
    rw [hSame] at hOther
    injection hOther with hOther
    subst hOther
    rcases larger_eq_some memory progress.memoryBest with
      ⟨kept, hKept, hMore, -⟩
    exact ⟨kept, hKept, hLe.trans hMore⟩
  · intro other hOther
    rw [hSame] at hOther
    exact hBelow.memory memory complete progress.rejected other
      hOther

/- A search that ended before the deadline was not cut. -/
theorem Discovered.exact
    (hFound :
      Discovered clock deadline since admission config working
        seen progress machine)
    (hComplete : progress.complete = true)
    (hEarly : ¬ Late clock deadline since machine) :
    ExactMaximum admission config working seen progress := by
  rcases hFound.2.2 hComplete with hExact | hLate
  · exact hExact
  · exact absurd hLate.1 hEarly

/- The clock has not passed the deadline before this reading. -/
theorem not_late_of_reading
    (hClock : Monotone clock)
    (hTime : clock machine.readings < deadline) :
    ¬ Late clock deadline since machine := by
  rintro ⟨i, -, hBefore, hLate⟩
  have hLe := hClock (Nat.le_of_lt hBefore)
  omega

theorem ExactMaximum.reject
    (hExact : ExactMaximum admission config working seen progress)
    (hStride : config.stride shards ≤ config.upperBound)
    (hNone : memoryBeams admission config shards = ∅)
    (rejected : List RejectedSearch) :
    ExactMaximum admission config working (seen ++ [shards])
      { progress with rejected := rejected } := by
  unfold ExactMaximum
  rw [overShards_insert _ _ _ hStride,
    overShards_insert _ _ _ hStride]
  exact
    ⟨hExact.1.skip (finalBeams_eq_empty hNone),
      hExact.2.skip hNone⟩

/- A shard count whose stride is above the bound adds nothing. -/
theorem ExactMaximum.pass
    (hExact : ExactMaximum admission config working seen progress)
    (hStride : config.upperBound < config.stride shards) :
    ExactMaximum admission config working (seen ++ [shards])
      progress := by
  unfold ExactMaximum
  rw [overShards_skip _ _ _ hStride,
    overShards_skip _ _ _ hStride]
  exact hExact

/- A shard count with a first beam alone. -/
theorem ExactMaximum.rejectFinal
    {memory : CapacityResult}
    (hExact : ExactMaximum admission config working seen progress)
    (hStride : config.stride shards ≤ config.upperBound)
    (hMemory :
      IsGreatest (memoryBeams admission config shards)
        memory.effectiveBeam)
    (hNone : finalBeams admission config working shards = ∅)
    (complete : Bool)
    (rejected : List RejectedSearch) :
    ExactMaximum admission config working (seen ++ [shards])
      { progress with
        complete := complete
        rejected := rejected
        memoryBest := larger memory progress.memoryBest } := by
  unfold ExactMaximum
  rw [overShards_insert _ _ _ hStride,
    overShards_insert _ _ _ hStride]
  exact ⟨hExact.1.skip hNone, hExact.2.larger hMemory⟩

/- A shard count with both beams. -/
theorem ExactMaximum.found
    {memory result : CapacityResult}
    (hExact : ExactMaximum admission config working seen progress)
    (hStride : config.stride shards ≤ config.upperBound)
    (hMemory :
      IsGreatest (memoryBeams admission config shards)
        memory.effectiveBeam)
    (hFinal :
      IsGreatest (finalBeams admission config working shards)
        result.effectiveBeam)
    (complete : Bool) :
    ExactMaximum admission config working (seen ++ [shards])
      { progress with
        complete := complete
        memoryBest := larger memory progress.memoryBest
        best := larger result progress.best } := by
  unfold ExactMaximum
  rw [overShards_insert _ _ _ hStride,
    overShards_insert _ _ _ hStride]
  exact ⟨hExact.1.larger hFinal, hExact.2.larger hMemory⟩

/- A rejection is recorded under the shard count just seen. -/
theorem rejectedLate_of_late
    (hLate : Late clock deadline since machine)
    (shards : Nat)
    (phase reason : String) :
    RejectedLate clock deadline since (seen ++ [shards])
      { progress with
        rejected :=
          progress.rejected ++ [⟨shards, phase, reason⟩] }
      machine :=
  ⟨hLate, ⟨shards, phase, reason⟩, by simp, by simp⟩

theorem searchShards_triple
    (hClock : Monotone clock)
    (hMonotone : MonotoneAdmission admission limit)
    {rest all : List Nat}
    (hAll : seen ++ rest = all) :
    Triple
      (Discovered clock deadline since admission config working
        seen progress)
      (searchShards clock deadline admission config working
        rest progress)
      (Discovered clock deadline since admission config working
        all)
      (fun _ _ => True) := by
  induction rest generalizing seen progress with
  | nil =>
      rw [List.append_nil] at hAll
      subst hAll
      exact Triple.value fun _ hFound => hFound
  | cons shards rest ih =>
      have hNext : (seen ++ [shards]) ++ rest = all := by
        rw [List.append_assoc]
        exact hAll
      unfold searchShards
      apply Triple.of_state
      intro start hFound
      have hSince := hFound.1
      have hBelow := hFound.2.1
      apply Triple.seq (R := fun time machine =>
        machine.readings = start.readings + 1 ∧
          time = clock start.readings)
      · intro machine hSame
        subst hSame
        exact ⟨rfl, rfl⟩
      intro time
      apply Triple.of_state
      rintro before ⟨hReadings, hTime⟩
      subst hTime
      have hBefore : since ≤ before.readings := by omega
      apply Triple.branch
      · intro hLate
        apply Triple.value
        intro machine hSame
        subst hSame
        exact
          ⟨hBefore, hBelow, fun hComplete =>
            absurd hComplete Bool.false_ne_true⟩
      intro hTime
      -- Nothing before this reading was cut by the deadline.
      have hSeen :
          progress.complete = true →
            ExactMaximum admission config working seen progress :=
        fun hComplete =>
          hFound.exact hComplete
            (not_late_of_reading hClock (Nat.lt_of_not_le hTime))
      apply Triple.branch
      · intro hStride
        apply (ih hNext).pre
        intro machine hSame
        subst hSame
        exact
          ⟨hBefore, hBelow, fun hComplete =>
            Or.inl ((hSeen hComplete).pass hStride)⟩
      intro hStride
      have hStride := Nat.le_of_not_lt hStride
      apply Triple.seq (catch_findCapacity hMonotone hBefore)
      intro memory
      apply Triple.of_state
      rintro between ⟨hBetween, hMemory⟩
      cases memory with
      | error reason =>
          apply (ih hNext).pre
          intro machine hSame
          subst hSame
          refine ⟨hBefore.trans hBetween, hBelow,
            fun hComplete => ?_⟩
          rcases hMemory with hLate | hNone
          · exact Or.inr (rejectedLate_of_late hLate _ _ _)
          · exact
              Or.inl ((hSeen hComplete).reject hStride hNone _)
      | ok memory =>
          have hBetween' := hBefore.trans hBetween
          apply Triple.seq
            (searchFinal_triple hMonotone hBetween' hMemory)
          intro final
          apply Triple.of_state
          rintro after ⟨hAfter, profile, hProfile, hFinal⟩
          have hBeams :
              memory.searchComplete = true →
                finalBeams admission config working shards =
                  admittedBeams admission memory.effectiveBeam
                    (config.stride shards) profile :=
            fun hUncut =>
              finalBeams_eq (hMemory.2.2 hUncut) hMemory.2.1
                hProfile
          cases final with
          | error reason =>
              apply (ih hNext).pre
              intro machine hSame
              subst hSame
              refine ⟨hBetween'.trans hAfter,
                hBelow.memory memory _ _, fun hComplete => ?_⟩
              rcases Bool.and_eq_true_iff.mp hComplete with
                ⟨hBefore, hUncut⟩
              rcases hFinal with hLate | hNone
              · exact Or.inr (rejectedLate_of_late hLate _ _ _)
              · have hEmpty :
                    finalBeams admission config working shards =
                      ∅ :=
                  (hBeams hUncut).trans hNone
                exact
                  Or.inl
                    ((hSeen hBefore).rejectFinal hStride
                      (hMemory.2.2 hUncut) hEmpty _ _)
          | ok result =>
              have hKept :
                  Discovered clock deadline since admission
                    config working (seen ++ [shards])
                    { progress with
                      complete :=
                        progress.complete &&
                            memory.searchComplete &&
                          result.searchComplete
                      memoryBest :=
                        larger memory progress.memoryBest
                      best := larger result progress.best }
                    after := by
                refine ⟨hBetween'.trans hAfter,
                  hBelow.final hFinal.1.2.2.1,
                  fun hComplete => Or.inl ?_⟩
                rcases Bool.and_eq_true_iff.mp hComplete with
                  ⟨hBoth, hFinalUncut⟩
                rcases Bool.and_eq_true_iff.mp hBoth with
                  ⟨hBefore, hUncut⟩
                refine
                  (hSeen hBefore).found hStride
                    (hMemory.2.2 hUncut) ?_ _
                rw [hBeams hUncut]
                exact hFinal.2.2 hFinalUncut
              apply Triple.branch
              · intro _
                apply (ih hNext).pre
                intro machine hSame
                subst hSame
                exact hKept
              · intro hCut
                apply Triple.value
                intro machine hSame
                subst hSame
                exact
                  ⟨hKept.1, hKept.2.1, fun hComplete =>
                    absurd hComplete hCut⟩

theorem discover_triple
    (hClock : Monotone clock)
    (hMonotone : MonotoneAdmission admission limit)
    {start : Machine} :
    Triple (fun machine => machine = start)
      (discover clock deadline admission config working)
      (fun discovery machine =>
        discovery.capacity.effectiveBeam ≤
            discovery.memoryCeiling.effectiveBeam ∧
          (discovery.capacity.searchComplete = true →
            (Late clock deadline start.readings machine ∧
                ∃ entry ∈ discovery.rejected,
                  entry.shards = 128) ∨
              IsGreatest
                  (overShards config
                    (finalBeams admission config working)
                    shardCounts)
                  discovery.capacity.effectiveBeam ∧
                IsGreatest
                  (overShards config
                    (memoryBeams admission config) shardCounts)
                  discovery.memoryCeiling.effectiveBeam))
      (fun _ _ => True) := by
  have hCounts :
      {s | s ∈ List.range' 1 128} = shardCounts := by
    ext s
    simp only [Set.mem_ofPred_eq, List.mem_range'_1,
      shardCounts]
    omega
  unfold discover
  apply Triple.branch
  · intro _
    exact Triple.stop fun _ _ => trivial
  intro _
  apply Triple.branch
  · intro _
    exact Triple.stop fun _ _ => trivial
  intro _
  apply Triple.read
  intro before hBefore
  subst hBefore
  have hLoop :
      Triple (fun machine => machine = before)
        (searchShards clock deadline admission config working
          (List.range' 1 128)
          { best := none
            memoryBest := none
            complete := true
            rejected := [] })
        (Discovered clock deadline before.readings admission
          config working (List.range' 1 128))
        (fun _ _ => True) := by
    apply (searchShards_triple hClock hMonotone
      (List.nil_append (List.range' 1 128))).pre
    intro machine hSame
    subst hSame
    have hNone : ∀ beams : Nat → Set Nat,
        overShards config beams {s | s ∈ ([] : List Nat)} =
          ∅ := by
      intro beams
      simp [overShards]
    refine ⟨le_rfl, ?_, fun _ => Or.inl ⟨hNone _, hNone _⟩⟩
    intro _ hBest
    cases hBest
  apply Triple.seq hLoop
  intro found
  apply Triple.read
  rintro after ⟨-, hBelow, hPeaks⟩
  cases hBest : found.best with
  | none => exact Triple.stop fun _ _ => trivial
  | some capacity =>
      cases hCeiling : found.memoryBest with
      | none => exact Triple.stop fun _ _ => trivial
      | some ceiling =>
          apply Triple.value
          intro machine hSame
          subst hSame
          rcases hBelow capacity hBest with
            ⟨largest, hLargest, hLe⟩
          rw [hCeiling] at hLargest
          injection hLargest with hLargest
          subst hLargest
          refine ⟨hLe, fun hComplete => ?_⟩
          rcases hPeaks hComplete with
            ⟨hPeak, hMemoryPeak⟩ | ⟨hLate, entry, hMem, hLast⟩
          · rw [hCounts, hBest] at hPeak
            rw [hCounts, hCeiling] at hMemoryPeak
            exact Or.inr ⟨hPeak, hMemoryPeak⟩
          · refine Or.inl ⟨hLate, entry, hMem, ?_⟩
            rw [List.getLast?_range'] at hLast
            exact (Option.some.inj hLast).symm

/-
  A complete search of profiles finds the largest admitted beam,
  and a rejection before the deadline means that there is none.
  A complete discovery finds the largest final beam and the
  largest beam under the minimum flush, unless the deadline made
  the rejection of the last shard count. No beam found exceeds
  the memory ceiling.
-/
theorem capacityDiscovery
    (hClock : Monotone clock)
    (hMonotone : MonotoneAdmission admission limit) :
    (∀ profiles upperBound alignment start result after,
        findCapacity clock deadline admission profiles
              upperBound alignment start =
            .ok result after →
          result.searchComplete = true →
            IsGreatest
              {beam |
                ∃ profile ∈ profiles,
                  beam ∈
                    admittedBeams admission upperBound alignment
                      profile}
              result.effectiveBeam) ∧
      (∀ profiles upperBound alignment start reason after,
        findCapacity clock deadline admission profiles
              upperBound alignment start =
            .error (.capacityRejected reason) after →
          (∀ i, start.readings ≤ i → i < after.readings →
            clock i < deadline) →
            ∀ profile ∈ profiles,
              admittedBeams admission upperBound alignment
                  profile =
                ∅) ∧
      ∀ config working start discovery after,
        discover clock deadline admission config working start =
            .ok discovery after →
          discovery.capacity.effectiveBeam ≤
              discovery.memoryCeiling.effectiveBeam ∧
            (discovery.capacity.searchComplete = true →
              (∀ entry ∈ discovery.rejected,
                  entry.shards ≠ 128) ∨
                clock (after.readings - 1) < deadline →
                IsGreatest
                    (overShards config
                      (finalBeams admission config working)
                      shardCounts)
                    discovery.capacity.effectiveBeam ∧
                  IsGreatest
                    (overShards config
                      (memoryBeams admission config)
                      shardCounts)
                    discovery.memoryCeiling.effectiveBeam) := by
  refine ⟨?_, ?_, ?_⟩
  · intro profiles upperBound alignment start result after hRun
      hComplete
    have hFound :=
      @findCapacity_triple clock deadline start.readings
        admission limit upperBound alignment profiles hMonotone
        start le_rfl
    rw [hRun] at hFound
    rcases hFound with ⟨-, hMem, hAdmitted, -, hLargest, -⟩
    refine ⟨⟨result.profile, hMem, hAdmitted⟩, ?_⟩
    rintro beam ⟨profile, hProfile, hBeam⟩
    exact hLargest hComplete profile hProfile beam hBeam
  · intro profiles upperBound alignment start reason after hRun
      hEarly
    have hFound :=
      @findCapacity_triple clock deadline start.readings
        admission limit upperBound alignment profiles hMonotone
        start le_rfl
    rw [hRun] at hFound
    rcases hFound reason rfl with ⟨-, ⟨i, hFrom, hTo, hTime⟩ | hNone⟩
    · exact absurd (hEarly i hFrom hTo) (Nat.not_lt.mpr hTime)
    · exact hNone
  · intro config working start discovery after hRun
    have hFound :=
      @discover_triple clock deadline admission limit config
        working hClock hMonotone start start rfl
    rw [hRun] at hFound
    refine ⟨hFound.1, fun hComplete hTrusted => ?_⟩
    rcases hFound.2 hComplete with
      ⟨⟨i, -, hTo, hTime⟩, entry, hMem, hLast⟩ | hPeaks
    · rcases hTrusted with hNone | hInTime
      · exact absurd hLast (hNone entry hMem)
      · have hLe : clock i ≤ clock (after.readings - 1) :=
          hClock (by omega)
        omega
    · exact hPeaks

end Correctness

----------------
-- Limited Admissions
----------------

/- The plan of a single rank with a survivor slab of 16. -/
def slabPlan (beam : Nat) : Json :=
  .object
    [("GLOBAL_BEAM_WIDTH_EFFECTIVE", .integer (.ofNat beam)),
      ("BEAM_WIDTH_ALIGNMENT", .integer 1),
      ("SHARD_COUNT", .integer 1),
      ("B_MICRO", .integer 1),
      ("WORLD_SIZE", .integer 1),
      ("STREAM4_BATCH_ALIGNMENT", .integer 1),
      ("LOCAL_RANK", .integer 0),
      ("estimated_required_device_bytes", .integer 0),
      ("gpu_budget_bytes", .integer 1),
      ("SHARD_CAPACITY_CANDIDATES", .integer 16)]

/- A planner with a limit for each profile. -/
def limitedAdmission (limit : Environment → Nat) : Admission :=
  fun beam profile =>
    if beam ≤ limit profile then .ok [slabPlan beam]
    else .error (.capacityRejected "memory bound")

theorem slabPlan_fromValue
    {beam : Nat}
    (hBits : beam < 2 ^ 64) :
    RankPlan.fromValue (slabPlan beam) =
      .ok
        { globalBeamWidth := beam
          beamAlignment := 1
          shards := 1
          outerBatch := 1
          world := 1
          batchAlignment := 1
          rank := some 0
          requiredBytes := 0
          budgetBytes := 1 } := by
  have hRead :
      RankPlan.readUnsigned 64 (.integer (.ofNat beam)) =
        .ok beam :=
    if_pos hBits
  have hValues :
      RankPlan.fieldValues (slabPlan beam) =
        .ok
          [.integer (.ofNat beam), .integer 1, .integer 1,
            .integer 1, .integer 1, .integer 1, .integer 0,
            .integer 0, .integer 1] :=
    rfl
  unfold RankPlan.fromValue
  rw [hValues]
  dsimp only
  rw [hRead]
  rfl

theorem slabPlan_validate
    {beam : Nat}
    (hPos : 0 < beam)
    (hBits : beam < 2 ^ 64) :
    validate [slabPlan beam] beam = .ok () := by
  let typed : RankPlan :=
    { globalBeamWidth := beam
      beamAlignment := 1
      shards := 1
      outerBatch := 1
      world := 1
      batchAlignment := 1
      rank := some 0
      requiredBytes := 0
      budgetBytes := 1 }
  have hTyped :
      [slabPlan beam].mapM RankPlan.fromValue =
        .ok [typed] := by
    rw [List.mapM_cons, slabPlan_fromValue hBits]
    rfl
  have hExact :
      ¬ (beam = 0 ∨ typed.globalBeamWidth ≠ beam) := by
    rintro (hZero | hNe)
    · omega
    · exact hNe rfl
  have hRows :
      validateRankPlans [typed] beam = .ok () := by
    refine (if_neg hExact).trans ?_
    simp [typed, validateRows, requireCapacity, except_ok_bind]
  unfold validate
  rw [hTyped, except_ok_bind, hRows]

theorem limitedAdmission_monotone
    {limit : Environment → Nat}
    (hBits : ∀ profile, limit profile < 2 ^ 64) :
    MonotoneAdmission (limitedAdmission limit) limit :=
  { accepts := fun profile beam hPos hLe =>
      ⟨[slabPlan beam], if_pos hLe,
        slabPlan_validate hPos (hLe.trans_lt (hBits profile))⟩
    refuses := fun _ _ hOver =>
      ⟨"memory bound", if_neg (Nat.not_le.mpr hOver)⟩ }

/- What a run reports: two beams, completeness, and the readings. -/
def report
    (run : EStateM.Result RuntimeError Machine Discovery) :
    Option (Nat × Nat × Bool × Nat) :=
  match run with
  | .ok discovery after =>
      some
        (discovery.capacity.effectiveBeam,
          discovery.memoryCeiling.effectiveBeam,
          discovery.capacity.searchComplete, after.readings)
  | .error _ _ => none

theorem report_eq_some
    {run : EStateM.Result RuntimeError Machine Discovery}
    {capacity ceiling readings : Nat}
    {complete : Bool}
    (hRun :
      report run = some (capacity, ceiling, complete, readings)) :
    ∃ discovery after,
      run = .ok discovery after ∧
        discovery.capacity.effectiveBeam = capacity ∧
        discovery.memoryCeiling.effectiveBeam = ceiling ∧
        discovery.capacity.searchComplete = complete ∧
        after.readings = readings := by
  cases run with
  | error error after => cases hRun
  | ok discovery after =>
      injection hRun with hRun
      injection hRun with hCapacity hRun
      injection hRun with hCeiling hRun
      injection hRun with hComplete hReadings
      exact ⟨discovery, after, rfl, hCapacity, hCeiling,
        hComplete, hReadings⟩

/- One shard holds a single state, the smallest flush at least. -/
def flushLimit (profile : Environment) : Nat :=
  if profile.lookup "BEAM_SHARD_COUNT" = some "1" then
    if profile.lookup "BEAM_STREAM4_BATCH_CANDIDATES" =
        some "8" then
      1
    else
      2
  else
    0

/- A search up to two states, with nothing to flush. -/
def flushConfig : MaximumConfig :=
  { upperBound := 2
    alignment := 1
    world := 1
    outer := 1
    minimumFlush := 0 }

theorem flushLimit_bits (profile : Environment) :
    flushLimit profile < 2 ^ 64 := by
  unfold flushLimit
  split_ifs <;> decide

theorem capacityDiscovery_flush :
    IsGreatest
      (overShards flushConfig
        (finalBeams (limitedAdmission flushLimit) flushConfig
          true)
        shardCounts)
      1 := by
  have hRun :
      report
          (discover (fun _ => 0) 1 (limitedAdmission flushLimit)
            flushConfig true ⟨0, 0⟩) =
        some (1, 1, true, 132) := by
    decide +kernel
  rcases report_eq_some hRun with
    ⟨discovery, after, hRun, hCapacity, -, hComplete, -⟩
  have hPeak :=
    (@capacityDiscovery (fun _ => 0) 1
      (limitedAdmission flushLimit) flushLimit monotone_const
      (limitedAdmission_monotone flushLimit_bits)).2.2
      flushConfig true ⟨0, 0⟩ discovery after hRun
  have hBoth := hPeak.2 hComplete (Or.inr (by decide))
  rw [hCapacity] at hBoth
  exact hBoth.1

/- The beams that the final profile admits below the upper bound. -/
def profileBeams
    (admission : Admission)
    (config : MaximumConfig)
    (working : Bool)
    (shards : Nat) : Set Nat :=
  {beam |
    ∃ ceiling plans profile,
      IsGreatest (memoryBeams admission config shards)
          ceiling ∧
        admission ceiling (config.memoryProfile shards) =
            .ok plans ∧
        config.finalProfile working shards plans =
            .ok profile ∧
        beam ∈
          admittedBeams admission config.upperBound
            (config.stride shards) profile}

/- Only the last shard count holds more than one state. -/
def lastLimit (profile : Environment) : Nat :=
  if profile.lookup "BEAM_SHARD_COUNT" = some "1" then
    1
  else if profile.lookup "BEAM_SHARD_COUNT" = some "128" then
    128
  else
    0

/- A search whose last shard count is reached. -/
def lastConfig : MaximumConfig :=
  { upperBound := 128
    alignment := 1
    world := 1
    outer := 1
    minimumFlush := 0 }

/- The deadline passes at the question about the last shard count. -/
def lastClock (reading : Nat) : Nat :=
  if reading < 330 then 0 else 1

theorem lastLimit_bits (profile : Environment) :
    lastLimit profile < 2 ^ 64 := by
  unfold lastLimit
  split_ifs <;> decide

theorem lastClock_monotone : Monotone lastClock := by
  intro a b hLe
  unfold lastClock
  split_ifs <;> omega

/-
  A search that the deadline cut before its first acceptance
  counts as a rejection; after the last shard count nothing looks
  at the clock again. The final search stays below the first
  beam, even where its profile would admit more.
-/
theorem discover_not_maximum :
    (Monotone lastClock ∧
      MonotoneAdmission (limitedAdmission lastLimit) lastLimit ∧
      ∃ discovery after,
        discover lastClock 1 (limitedAdmission lastLimit)
            lastConfig false ⟨0, 0⟩ =
          .ok discovery after ∧
        discovery.capacity.searchComplete = true ∧
        ¬ IsGreatest
            (overShards lastConfig
              (memoryBeams (limitedAdmission lastLimit)
                lastConfig)
              shardCounts)
            discovery.memoryCeiling.effectiveBeam ∧
        ¬ IsGreatest
            (overShards lastConfig
              (profileBeams (limitedAdmission lastLimit)
                lastConfig false)
              shardCounts)
            discovery.capacity.effectiveBeam) ∧
      MonotoneAdmission (limitedAdmission flushLimit)
        flushLimit ∧
      ∃ discovery after,
        discover (fun _ => 0) 1 (limitedAdmission flushLimit)
            flushConfig true ⟨0, 0⟩ =
          .ok discovery after ∧
        discovery.capacity.searchComplete = true ∧
        ¬ IsGreatest
            (overShards flushConfig
              (profileBeams (limitedAdmission flushLimit)
                flushConfig true)
              shardCounts)
            discovery.capacity.effectiveBeam := by
  constructor
  · have hRun :
        report
            (discover lastClock 1 (limitedAdmission lastLimit)
              lastConfig false ⟨0, 0⟩) =
          some (1, 1, true, 331) := by
      decide +kernel
    rcases report_eq_some hRun with
      ⟨discovery, after, hRun, hCapacity, hCeiling, hComplete,
        -⟩
    have hLimit :
        lastLimit (lastConfig.memoryProfile 128) = 128 := by
      decide
    have hLast : 128 ∈ shardCounts := ⟨by omega, by omega⟩
    have hStride : lastConfig.stride 128 = 128 := by decide
    have hBeam :
        128 ∈
          memoryBeams (limitedAdmission lastLimit) lastConfig
            128 :=
      ⟨by decide, hStride ▸ Nat.dvd_refl _, by decide, [slabPlan 128],
        if_pos hLimit.ge⟩
    have hGreatest :
        IsGreatest
          (memoryBeams (limitedAdmission lastLimit) lastConfig
            128)
          128 :=
      ⟨hBeam, fun beam hOther => hOther.2.2.1⟩
    refine ⟨lastClock_monotone,
      limitedAdmission_monotone lastLimit_bits, discovery,
      after, hRun, hComplete, ?_, ?_⟩
    · rintro ⟨-, hUpper⟩
      have hLe :=
        hUpper ⟨128, hLast, by decide, hBeam⟩
      rw [hCeiling] at hLe
      exact absurd hLe (by decide)
    · rintro ⟨-, hUpper⟩
      have hLe :=
        hUpper
          ⟨128, hLast, by decide, 128, [slabPlan 128],
            lastConfig.memoryProfile 128, hGreatest,
            if_pos hLimit.ge, rfl, hBeam⟩
      rw [hCapacity] at hLe
      exact absurd hLe (by decide)
  · have hRun :
        report
            (discover (fun _ => 0) 1
              (limitedAdmission flushLimit) flushConfig true
              ⟨0, 0⟩) =
          some (1, 1, true, 132) := by
      decide +kernel
    rcases report_eq_some hRun with
      ⟨discovery, after, hRun, hCapacity, -, hComplete, -⟩
    let profile : Environment :=
      (flushConfig.memoryProfile 1).insert
        "BEAM_STREAM4_BATCH_CANDIDATES" "16"
    have hLimit :
        flushLimit (flushConfig.memoryProfile 1) = 1 := by
      decide
    have hFinal : flushLimit profile = 2 := by decide
    have hFirst : 1 ∈ shardCounts := ⟨by omega, by omega⟩
    have hStride : flushConfig.stride 1 = 1 := by decide
    have hProfile :
        flushConfig.finalProfile true 1 [slabPlan 1] =
          .ok profile := by
      decide
    have hGreatest :
        IsGreatest
          (memoryBeams (limitedAdmission flushLimit)
            flushConfig 1)
          1 := by
      refine ⟨⟨by decide, hStride ▸ Nat.dvd_refl _, by decide,
        [slabPlan 1], if_pos hLimit.ge⟩, ?_⟩
      rintro beam ⟨-, -, -, hAdmitted⟩
      have hLe :=
        (limitedAdmission_monotone flushLimit_bits).le_limit
          hAdmitted
      rwa [hLimit] at hLe
    refine ⟨limitedAdmission_monotone flushLimit_bits,
      discovery, after, hRun, hComplete, ?_⟩
    rintro ⟨-, hUpper⟩
    have hBeam :
        2 ∈
          admittedBeams (limitedAdmission flushLimit)
            flushConfig.upperBound (flushConfig.stride 1)
            profile :=
      ⟨by decide, hStride ▸ Nat.one_dvd 2, by decide,
        [slabPlan 2], if_pos hFinal.ge⟩
    have hLe :=
      hUpper
        ⟨1, hFirst, by decide, 1, [slabPlan 1], profile,
          hGreatest, if_pos hLimit.ge, hProfile, hBeam⟩
    rw [hCapacity] at hLe
    exact absurd hLe (by decide)

end Calibration

end BeamSearch
