import BeamSearch.Calibration.Components

/-
  Bounded proposals of schedules.

  From an admitted baseline a pool of variants is built, ordered
  by how the measured service weighs its stages, and cut to a
  short list: each environment once and, in the coarse phase,
  each family once.

  Main declarations:
    * `validateEnvironment`
    * `proposals`
    * `nodup_candidates`
-/

namespace BeamSearch

namespace Calibration

open Text (Double ofDecimal numeral parseU64)

namespace Environment

/- The same map: as many keys, with the same values. -/
def same (a b : Environment) : Bool :=
  a.length == b.length &&
    a.all fun entry => b.lookup entry.1 == some entry.2

theorem same_self
    {environment : Environment}
    (hKeys : (environment.map Prod.fst).Nodup) :
    same environment environment = true := by
  rw [same, beq_self_eq_true, Bool.true_and, List.all_eq_true]
  intro entry hMem
  rw [KeyedList.lookup_of_mem hKeys hMem]
  exact beq_self_eq_true _

end Environment

----------------
-- Environments
----------------

/- The name of the policy. -/
def policy : String :=
  "rust-native-admitted-shortlist-v1"

/- The rows of an inference call. -/
def microKey : String :=
  "BEAM_ENSEMBLE_INFERENCE_MICRO"

/- The parents of a batch. -/
def outerKey : String :=
  "BEAM_B_MICRO"

/- The slots of a ring. -/
def stagingKey : String :=
  "BEAM_STREAM3_RING_SLOTS"

/- The shards of a rank. -/
def shardsKey : String :=
  "BEAM_SHARD_COUNT"

/- The rows of a sort. -/
def batchKey : String :=
  "BEAM_STREAM4_BATCH_CANDIDATES"

/- The sorts at a time. -/
def lanesKey : String :=
  "BEAM_STREAM4_ACTIVE_SORT_SLOTS"

/- The variables that a proposal may change. -/
def tunableKeys : List String :=
  [outerKey, stagingKey, shardsKey, batchKey, lanesKey]

/- What the source returns for an invalid proposal. -/
def invalidProposal : ContractError :=
  .invalid "downstream scheduling proposal"

/- A tunable key with a number of plain digits up to 2 ^ 40. -/
def validEntry (entry : String × String) : Bool :=
  (tunableKeys.contains entry.1 || entry.1 == microKey) &&
    Text.allDigits entry.2.toList &&
      (parseU64 entry.2).any fun n =>
        decide (0 < n) && decide (n ≤ 2 ^ 40)

/-
  An environment has six variables, and each is a positive
  number within its bound.
-/
def validateEnvironment
    (environment : Environment)
    (micro : Nat) : Except ContractError Unit :=
  if environment.length ≠ 6 ∨ micro < 1 ∨ 65536 < micro ∨
      environment.lookup microKey ≠ some (numeral micro) then
    .error invalidProposal
  else if environment.all validEntry then
    .ok ()
  else
    .error invalidProposal

----------------
-- The Pool
----------------

/- What is known of the device. -/
structure Hardware where
  smCount : Nat
  l2Bytes : Nat
deriving DecidableEq, Repr

/- The sizes of the search. -/
structure SearchGeometry where
  beam : Nat
  world : Nat
  moves : Nat
  alignment : Nat
  rowFactor : Nat
deriving DecidableEq, Repr

/- An environment with its name. -/
structure ProposedProfile where
  name : String
  environment : Environment
deriving DecidableEq, Repr

/- What the policy proposes, and what it left out. -/
structure Proposals where
  candidates : List ProposedProfile
  omitted : List String
  regime : String
  policy : String
deriving DecidableEq, Repr

/- The next multiple, refused where it overflows. -/
def roundUp
    (n alignment : Nat) : Except ContractError Nat :=
  let rounded := divCeil n alignment * alignment
  if rounded < 2 ^ 64 then .ok rounded
  else .error (.overflow "profile rounding")

/- The baseline's schedule and the bounds of its variants. -/
structure Schedule where
  outer : Nat
  shards : Nat
  staging : Nat
  lanes : Nat
  batch : Nat
  quantum : Nat
  localBeam : Nat
  maxShards : Nat
  maxLanes : Nat
deriving DecidableEq, Repr

/- The baseline with some variables set. -/
def variant
    (baseline : Environment)
    (name : String)
    (updates : List (String × Nat)) : ProposedProfile :=
  { name := name
    environment :=
      updates.foldl
        (fun environment update =>
          Environment.insert update.1 (numeral update.2)
            environment)
        baseline }

/- The number, moved between both bounds. -/
def clamp (n low high : Nat) : Nat :=
  min (max n low) high

section Pool

variable (shape : SearchGeometry)
variable (hardware : Hardware)
variable (baseline : Environment)
variable (schedule : Schedule)

/- So many shards, and no more lanes than shards. -/
def shardsVariant (s : Nat) : ProposedProfile :=
  variant baseline ("shards-" ++ numeral s)
    [(shardsKey, s), (lanesKey, min schedule.lanes s)]

/- The baseline with another count of slots. -/
def stagingVariant (n : Nat) : ProposedProfile :=
  variant baseline ("staging-" ++ numeral n) [(stagingKey, n)]

/- The variants near the baseline. -/
def finePool : Except ContractError (List ProposedProfile) := do
  let flush ← roundUp (schedule.batch * 5 / 4) shape.alignment
  let outers ←
    [3, 5].mapM fun numerator => do
      let n ←
        roundUp (schedule.outer * numerator / 4) schedule.quantum
      pure (max n schedule.quantum)
  let fits := fun n =>
    decide
      (n ≤
        max (schedule.localBeam * shape.rowFactor)
          schedule.quantum)
  pure
    ([max (schedule.shards - 1) 1,
          min (schedule.shards + 1) schedule.maxShards].map
        (shardsVariant baseline schedule) ++
      [max (schedule.lanes - 1) 1,
          min (schedule.lanes + 1) schedule.maxLanes].map
        (fun n =>
          variant baseline ("lanes-" ++ numeral n)
            [(lanesKey, n)]) ++
      [max (schedule.staging - 1) 2,
          min (schedule.staging + 1) 8].map
        (stagingVariant baseline) ++
      [variant baseline ("batch-" ++ numeral flush)
        [(batchKey, flush)]] ++
      (outers.filter fits).map fun n =>
        variant baseline ("outer-" ++ numeral n)
          [(outerKey, n)])

/- A batch of a part of the cache, where its size is known. -/
def l2Pool : Except ContractError (List ProposedProfile) :=
  if hardware.l2Bytes > 0 then do
    let n ← roundUp (max (hardware.l2Bytes / 32) 1) shape.alignment
    pure [variant baseline "l2-batch" [(batchKey, n)]]
  else
    pure []

/- The variants far from it. -/
def coarsePool : Except ContractError (List ProposedProfile) := do
  let bulk ←
    roundUp
      (divCeil (schedule.localBeam * shape.moves)
        (schedule.shards * 4))
      shape.alignment
  let l2Batch ← l2Pool shape hardware baseline
  let fits := fun factor =>
    decide
        (schedule.outer * factor ≤
          schedule.localBeam * shape.rowFactor) &&
      decide (schedule.outer * factor < 2 ^ 64)
  pure
    (([2, 4].filter fits).map
        (fun factor =>
          variant baseline
            ("outer-" ++ numeral (schedule.outer * factor))
            [(outerKey, schedule.outer * factor),
              (stagingKey,
                max (divCeil schedule.staging factor) 2)]) ++
      [2, 4, 8].map (stagingVariant baseline) ++
      [1, schedule.maxLanes,
          min (schedule.lanes * 2) schedule.maxLanes].map
        (fun n =>
          variant baseline ("lanes-" ++ numeral n)
            [(lanesKey, min n schedule.shards)]) ++
      [variant baseline "bulk" [(batchKey, bulk)]] ++
      l2Batch ++
      [1, min (schedule.shards * 2) schedule.maxShards,
          max (schedule.shards / 2) 1,
          min (divCeil hardware.smCount 8) schedule.maxShards].map
        (shardsVariant baseline schedule))

end Pool

----------------
-- The Short List
----------------

/- Which families come first, by where the time goes. -/
def regimeOf
    (service : ServiceEnvelope) :
    Except ContractError (String × List String) :=
  let downstream := service.downstreamServiceWorkSeconds
  let ratio := downstream / service.inferenceSeconds
  if !ratio.isFinite || Double.less ratio Double.zero ||
      Double.lessEqual service.inferenceSeconds Double.zero then
    .error invalidProposal
  else if Double.lessEqual ratio (ofDecimal false 5 100) then
    .ok
      ("inference_dominated",
        ["outer-", "staging-", "lanes-", "bulk", "shards-",
          "l2-batch"])
  else if
      Double.lessEqual (downstream / Double.ofNat 2)
        service.stream4Seconds then
    .ok
      ("sort_pressure",
        ["bulk", "shards-", "lanes-", "outer-", "staging-",
          "l2-batch"])
  else
    .ok
      ("transport_or_mixed",
        ["outer-", "staging-", "bulk", "shards-", "lanes-",
          "l2-batch"])

/- The first prefix a name starts with. -/
def family (priority : List String) (name : String) : Nat :=
  priority.findIdx fun p => p.toList.isPrefixOf name.toList

/- What was shortlisted, and what it used up. -/
structure Shortlist where
  used : List Environment
  families : List Nat
  candidates : List ProposedProfile
  omitted : List String

section Shortlist

variable (micro batch : Nat)
variable (fine : Bool)
variable (priority : List String)

/- A new environment of a new family, while there is room. -/
def consider
    (list : Shortlist)
    (row : ProposedProfile) : Except ContractError Shortlist := do
  validateEnvironment row.environment micro
  let flush ←
    okOr invalidProposal
      ((row.environment.lookup batchKey).bind parseU64)
  if flush < batch ∨ list.used.any row.environment.same then
    pure list
  else
    let list := { list with used := row.environment :: list.used }
    let key := family priority row.name
    if (if fine then 10 else 4) ≤ list.candidates.length then
      pure { list with omitted := list.omitted ++ [row.name] }
    else if fine then
      pure { list with candidates := list.candidates ++ [row] }
    else if list.families.contains key then
      pure { list with omitted := list.omitted ++ [row.name] }
    else
      pure
        { list with
          families := key :: list.families
          candidates := list.candidates ++ [row] }

end Shortlist

/- A variable of the baseline, as a number. -/
def valueOf
    (baseline : Environment)
    (key : String) : Except ContractError Nat :=
  okOr invalidProposal ((baseline.lookup key).bind parseU64)

/- The schedule of a baseline that is valid. -/
def scheduleOf
    (shape : SearchGeometry)
    (hardware : Hardware)
    (baseline : Environment)
    (micro : Nat) : Except ContractError Schedule := do
  validateEnvironment baseline micro
  let outer ← valueOf baseline outerKey
  let shards ← valueOf baseline shardsKey
  let staging ← valueOf baseline stagingKey
  let lanes ← valueOf baseline lanesKey
  let batch ← valueOf baseline batchKey
  let quantum ←
    okOr (.overflow "inference row quantum")
      (checkedMul micro shape.rowFactor)
  if outer % quantum ≠ 0 then
    .error invalidProposal
  else
    let localBeam := divCeil shape.beam shape.world
    let maxShards :=
      clamp (divCeil localBeam shape.alignment) 1 128
    pure
      { outer := outer
        shards := shards
        staging := staging
        lanes := lanes
        batch := batch
        quantum := quantum
        localBeam := localBeam
        maxShards := maxShards
        maxLanes :=
          clamp (divCeil hardware.smCount 16) 1 maxShards }

/-
  The variants of the pool in the order of their families, as
  far as they are new.
-/
def proposals
    (shape : SearchGeometry)
    (baseline : Environment)
    (hardware : Hardware)
    (service : ServiceEnvelope)
    (fine : Bool)
    (seen : List Environment) : Except ContractError Proposals :=
  if shape.beam = 0 ∨ shape.world = 0 ∨ 65535 < shape.world ∨
      shape.moves < 1 ∨ 255 < shape.moves ∨
      shape.alignment = 0 ∨
      (shape.rowFactor ≠ 1 ∧ shape.rowFactor ≠ shape.moves) ∨
      hardware.smCount = 0 then
    .error invalidProposal
  else do
    let micro ← valueOf baseline microKey
    let schedule ← scheduleOf shape hardware baseline micro
    let pool ←
      (if fine then finePool shape baseline schedule
        else coarsePool shape hardware baseline schedule)
    let regime ← regimeOf service
    let rows :=
      pool.insertionSort fun a b =>
        family regime.2 a.name ≤ family regime.2 b.name
    let list ←
      rows.foldlM (consider micro schedule.batch fine regime.2)
        { used := baseline :: seen
          families := []
          candidates := []
          omitted := [] }
    pure
      { candidates := list.candidates
        omitted := list.omitted
        regime := regime.1
        policy := policy }

----------------
-- Distinct Names
----------------

/- The candidates are of distinct families, all of them noted. -/
structure OneEach
    (priority : List String)
    (list : Shortlist) : Prop where
  nodup :
    (list.candidates.map fun row =>
      family priority row.name).Nodup
  noted :
    ∀ row ∈ list.candidates,
      family priority row.name ∈ list.families

theorem OneEach.consider
    {micro batch : Nat}
    {priority : List String}
    {list list' : Shortlist}
    {row : ProposedProfile}
    (hEach : OneEach priority list)
    (hStep :
      consider micro batch false priority list row = .ok list') :
    OneEach priority list' := by
  unfold Calibration.consider at hStep
  rcases except_bind_eq_ok hStep with ⟨_, _, hStep⟩
  rcases except_bind_eq_ok hStep with ⟨flush, _, hStep⟩
  simp only [Bool.false_eq_true, if_false] at hStep
  split_ifs at hStep with hSkip hFull hKnown
  · cases hStep
    exact hEach
  · cases hStep
    exact ⟨hEach.nodup, hEach.noted⟩
  · cases hStep
    exact ⟨hEach.nodup, hEach.noted⟩
  · cases hStep
    have hNew :
        family priority row.name ∉ list.families := by
      simpa using hKnown
    refine ⟨?_, ?_⟩
    · rw [List.map_append, List.map_singleton]
      refine hEach.nodup.append (List.nodup_singleton _) ?_
      intro key hOld hLast
      rcases List.mem_map.mp hOld with ⟨other, hOther, hKey⟩
      rw [List.mem_singleton.mp hLast] at hKey
      exact hNew (hKey ▸ hEach.noted other hOther)
    · intro other hOther
      rcases List.mem_append.mp hOther with hOld | hLast
      · exact List.mem_cons_of_mem _ (hEach.noted other hOld)
      · rw [List.mem_singleton.mp hLast]
        exact List.mem_cons_self

/- No two coarse candidates have the same name. -/
theorem nodup_candidates
    {shape : SearchGeometry}
    {baseline : Environment}
    {hardware : Hardware}
    {service : ServiceEnvelope}
    {seen : List Environment}
    {result : Proposals}
    (hRun :
      proposals shape baseline hardware service false seen =
        .ok result) :
    (result.candidates.map ProposedProfile.name).Nodup := by
  unfold proposals at hRun
  simp only [Bool.false_eq_true, if_false] at hRun
  split_ifs at hRun with hShape
  rcases except_bind_eq_ok hRun with ⟨micro, _, hRun⟩
  rcases except_bind_eq_ok hRun with ⟨schedule, _, hRun⟩
  rcases except_bind_eq_ok hRun with ⟨pool, _, hRun⟩
  rcases except_bind_eq_ok hRun with ⟨regime, _, hRun⟩
  rcases except_bind_eq_ok hRun with ⟨list, hRows, hRun⟩
  cases hRun
  have hStart :
      OneEach regime.2
        { used := baseline :: seen
          families := []
          candidates := []
          omitted := [] } :=
    ⟨List.nodup_nil,
      fun row hMem => absurd hMem List.not_mem_nil⟩
  have hEach :=
    @foldlM_eq_ok _ _ _ (fun _ list => OneEach regime.2 list) _
      (fun _ _ _ _ hEach hStep => hEach.consider hStep) [] _ _ _
      hStart hRows
  refine List.Nodup.of_map (family regime.2) ?_
  rw [List.map_map]
  exact hEach.nodup

end Calibration

end BeamSearch
