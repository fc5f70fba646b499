import BeamSearch.Calibration.ProfilePolicy

/-
  The short list stays inside the admitted envelope.

  A variant changes the baseline by rounding, halving and
  clamping a few variables. Each rule keeps the row quantum and
  the bound of the shards; validation and the set of used
  environments keep the rest.

  Main declarations:
    * `Environment.Same`
    * `WithinEnvelope`
    * `Shortlisted`
    * `proposals_within`
-/

namespace BeamSearch

namespace Calibration

open Text (numeral parseU64 parseU64_numeral)

variable {baseline environment : Environment} {schedule : Schedule} {micro : Nat}
    {shape : SearchGeometry} {row : ProposedProfile}

----------------
-- Maps
----------------

namespace Environment

open KeyedList

/- Every variable is set once. -/
def Keyed (environment : Environment) : Prop :=
  (environment.map Prod.fst).Nodup

/- The same map: every variable has the same value. -/
def Same (a b : Environment) : Prop :=
  ∀ key, a.lookup key = b.lookup key

theorem Same.symm
    {a b : Environment}
    (hSame : Same a b) :
    Same b a :=
  fun key => (hSame key).symm

/- The comparison of lists is the comparison of maps. -/
theorem same_iff
    {a b : Environment}
    (hA : a.Keyed)
    (hB : b.Keyed) :
    same a b = true ↔ Same a b := by
  simp only [same, Bool.and_eq_true, List.all_eq_true,
    beq_iff_eq]
  constructor
  · rintro ⟨hLength, hEach⟩ key
    have hSub : a.map Prod.fst ⊆ b.map Prod.fst := by
      intro key hMem
      rcases List.mem_map.mp hMem with ⟨entry, hEntry, rfl⟩
      exact
        List.mem_map_of_mem (mem_of_lookup (hEach entry hEntry))
    have hPerm : (a.map Prod.fst).Perm (b.map Prod.fst) := by
      refine
        (List.subperm_of_subset hA hSub).perm_of_length_le ?_
      rw [List.length_map, List.length_map, hLength]
    cases hLookup : a.lookup key with
    | some value =>
        exact (hEach _ (mem_of_lookup hLookup)).symm
    | none =>
        refine (lookup_eq_none_of_not_mem fun hMem => ?_).symm
        rcases
          (mem_keys_iff hA key).mp (hPerm.mem_iff.mpr hMem) with
          ⟨value, hSome⟩
        rw [hLookup] at hSome
        cases hSome
  · intro hSame
    have hPerm : (a.map Prod.fst).Perm (b.map Prod.fst) := by
      refine (List.perm_ext_iff_of_nodup hA hB).mpr fun key => ?_
      rw [mem_keys_iff hA, mem_keys_iff hB, hSame key]
    refine ⟨by simpa using hPerm.length_eq, fun entry hMem => ?_⟩
    rw [← hSame]
    exact lookup_of_mem hA hMem

theorem lookup_insert
    (key value other : String)
    (environment : Environment) :
    (Environment.insert key value environment).lookup other =
      if other = key then some value
      else environment.lookup other :=
  lookup_put key other value environment

theorem Keyed.insert
    {environment : Environment}
    (hKeyed : environment.Keyed)
    (key value : String) :
    (Environment.insert key value environment).Keyed :=
  nodup_put key value hKeyed

end Environment

----------------
-- Variants
----------------

/- What a variant holds is the baseline's or a new value. -/
theorem variant_lookup
    (P : Nat → Prop)
    (baseline : Environment)
    (name key : String)
    {updates : List (String × Nat)}
    (hUpdates :
      ∀ update ∈ updates, update.1 = key → P update.2) :
    (variant baseline name updates).environment.lookup key =
        baseline.lookup key ∨
      ∃ n, P n ∧
        (variant baseline name updates).environment.lookup key =
          some (numeral n) := by
  unfold variant
  dsimp only
  induction updates using List.reverseRecOn with
  | nil => exact Or.inl rfl
  | append_singleton updates last ih =>
      rw [List.foldl_append, List.foldl_cons, List.foldl_nil,
        Environment.lookup_insert]
      split_ifs with hKey
      · refine Or.inr ⟨last.2, ?_, rfl⟩
        exact
          hUpdates last
            (List.mem_append_right _ (List.mem_singleton.mpr rfl))
            hKey.symm
      · exact
          ih fun update hMem =>
            hUpdates update (List.mem_append_left _ hMem)

theorem variant_keyed
    (hKeyed : baseline.Keyed)
    (name : String)
    (updates : List (String × Nat)) :
    (variant baseline name updates).environment.Keyed := by
  unfold variant
  dsimp only
  induction updates using List.reverseRecOn with
  | nil => exact hKeyed
  | append_singleton updates last ih =>
      rw [List.foldl_append, List.foldl_cons, List.foldl_nil]
      exact ih.insert _ _

----------------
-- The Pool
----------------

/- New values of the outer batch and the shards are in bounds. -/
def Bounded
    (schedule : Schedule)
    (updates : List (String × Nat)) : Prop :=
  (∀ update ∈ updates, update.1 = outerKey →
      schedule.quantum ∣ update.2 ∧ update.2 < 2 ^ 64) ∧
    ∀ update ∈ updates, update.1 = shardsKey →
      update.2 ≤ max schedule.shards schedule.maxShards

/- A bounded change of the baseline. -/
def Varied
    (baseline : Environment)
    (schedule : Schedule)
    (row : ProposedProfile) : Prop :=
  ∃ updates,
    row = variant baseline row.name updates ∧
      Bounded schedule updates

theorem Varied.of_updates
    {updates : List (String × Nat)}
    (hBounded : Bounded schedule updates)
    (baseline : Environment)
    (name : String) :
    Varied baseline schedule (variant baseline name updates) :=
  ⟨updates, rfl, hBounded⟩

/- A change of one other variable is bounded. -/
theorem bounded_of_other
    (schedule : Schedule)
    {key : String}
    (hOuter : key ≠ outerKey)
    (hShards : key ≠ shardsKey)
    (n : Nat) :
    Bounded schedule [(key, n)] := by
  constructor
  · intro update hMem hKey
    rw [List.mem_singleton.mp hMem] at hKey
    exact absurd hKey hOuter
  · intro update hMem hKey
    rw [List.mem_singleton.mp hMem] at hKey
    exact absurd hKey hShards

theorem outerKey_ne_shardsKey : outerKey ≠ shardsKey := by
  decide

theorem bounded_of_outer
    {n : Nat}
    (hDvd : schedule.quantum ∣ n)
    (hFits : n < 2 ^ 64) :
    Bounded schedule [(outerKey, n)] := by
  constructor
  · intro update hMem _
    rw [List.mem_singleton.mp hMem]
    exact ⟨hDvd, hFits⟩
  · intro update hMem hKey
    rw [List.mem_singleton.mp hMem] at hKey
    exact absurd hKey outerKey_ne_shardsKey

theorem Bounded.append
    {a b : List (String × Nat)}
    (hA : Bounded schedule a)
    (hB : Bounded schedule b) :
    Bounded schedule (a ++ b) := by
  constructor
  · intro update hMem
    rcases List.mem_append.mp hMem with hMem | hMem
    · exact hA.1 update hMem
    · exact hB.1 update hMem
  · intro update hMem
    rcases List.mem_append.mp hMem with hMem | hMem
    · exact hA.2 update hMem
    · exact hB.2 update hMem

theorem bounded_of_shards
    {s : Nat}
    (hLe : s ≤ max schedule.shards schedule.maxShards) :
    Bounded schedule [(shardsKey, s)] := by
  constructor
  · intro update hMem hKey
    rw [List.mem_singleton.mp hMem] at hKey
    exact absurd hKey.symm outerKey_ne_shardsKey
  · intro update hMem _
    rw [List.mem_singleton.mp hMem]
    exact hLe

theorem shardsVariant_varied
    {s : Nat}
    (hLe : s ≤ max schedule.shards schedule.maxShards)
    (baseline : Environment) :
    Varied baseline schedule
      (shardsVariant baseline schedule s) :=
  Varied.of_updates
    ((bounded_of_shards hLe).append
      (bounded_of_other schedule (by decide) (by decide) _))
    baseline _

theorem lanesVariant_varied
    (baseline : Environment)
    (schedule : Schedule)
    (name : String)
    (n : Nat) :
    Varied baseline schedule
      (variant baseline name [(lanesKey, n)]) :=
  Varied.of_updates
    (bounded_of_other schedule (by decide) (by decide) n)
    baseline name

theorem stagingVariant_varied
    (baseline : Environment)
    (schedule : Schedule)
    (n : Nat) :
    Varied baseline schedule (stagingVariant baseline n) :=
  Varied.of_updates
    (bounded_of_other schedule (by decide) (by decide) n)
    baseline _

theorem batchVariant_varied
    (baseline : Environment)
    (schedule : Schedule)
    (name : String)
    (n : Nat) :
    Varied baseline schedule
      (variant baseline name [(batchKey, n)]) :=
  Varied.of_updates
    (bounded_of_other schedule (by decide) (by decide) n)
    baseline name

/- What the bounds of a schedule keep. -/
structure Schedule.Admitted
    (micro : Nat)
    (shape : SearchGeometry)
    (schedule : Schedule) : Prop where
  quantum : schedule.quantum = micro * shape.rowFactor
  fits : schedule.quantum < 2 ^ 64
  outer : schedule.quantum ∣ schedule.outer
  shardsPos : 0 < schedule.shards
  shardsFit : schedule.shards < 2 ^ 64
  maxShards : schedule.maxShards ≤ 128

theorem roundUp_eq_ok
    {n alignment rounded : Nat}
    (hRun : roundUp n alignment = .ok rounded) :
    alignment ∣ rounded ∧ rounded < 2 ^ 64 := by
  unfold roundUp at hRun
  dsimp only at hRun
  split_ifs at hRun with hFits
  cases hRun
  exact ⟨Nat.dvd_mul_left .., hFits⟩

theorem finePool_varied
    (hAdmitted : schedule.Admitted micro shape)
    {pool : List ProposedProfile}
    (hPool : finePool shape baseline schedule = .ok pool)
    (hRow : row ∈ pool) :
    Varied baseline schedule row := by
  unfold finePool at hPool
  rcases except_bind_eq_ok hPool with ⟨flush, -, hPool⟩
  rcases except_bind_eq_ok hPool with ⟨outers, hOuters, hPool⟩
  cases hPool
  have hOuter :
      ∀ n ∈ outers, schedule.quantum ∣ n ∧ n < 2 ^ 64 := by
    have hEach := mapM_eq_ok hOuters
    intro n hMem
    rcases List.getElem_of_mem hMem with ⟨k, hK, rfl⟩
    have hRun := hEach.get (hEach.length_eq ▸ hK) hK
    rcases except_bind_eq_ok hRun with ⟨m, hRound, hMax⟩
    rcases roundUp_eq_ok hRound with ⟨hDvd, hFits⟩
    have hN : outers[k] = max m schedule.quantum :=
      (Except.ok.inj hMax).symm
    rw [hN]
    rcases max_choice m schedule.quantum with hEq | hEq
    · rw [hEq]
      exact ⟨hDvd, hFits⟩
    · rw [hEq]
      exact ⟨dvd_rfl, hAdmitted.fits⟩
  have hPos := hAdmitted.shardsPos
  simp only [List.mem_append, List.mem_map, List.mem_cons,
    List.not_mem_nil, or_false, List.mem_filter] at hRow
  rcases hRow with
    ((((⟨s, hS, rfl⟩ | ⟨n, -, rfl⟩) | ⟨n, -, rfl⟩) | rfl) |
      ⟨n, ⟨hN, -⟩, rfl⟩)
  · refine shardsVariant_varied ?_ baseline
    rcases hS with rfl | rfl
    · omega
    · omega
  · exact lanesVariant_varied ..
  · exact stagingVariant_varied ..
  · exact batchVariant_varied ..
  · exact
      Varied.of_updates
        (bounded_of_outer (hOuter n hN).1 (hOuter n hN).2)
        baseline _

theorem coarsePool_varied
    (hAdmitted : schedule.Admitted micro shape)
    {hardware : Hardware}
    {pool : List ProposedProfile}
    (hPool :
      coarsePool shape hardware baseline schedule = .ok pool)
    (hRow : row ∈ pool) :
    Varied baseline schedule row := by
  unfold coarsePool at hPool
  rcases except_bind_eq_ok hPool with ⟨bulk, -, hPool⟩
  rcases except_bind_eq_ok hPool with ⟨l2, hL2, hPool⟩
  cases hPool
  have hPos := hAdmitted.shardsPos
  have hL2Varied : ∀ row ∈ l2, Varied baseline schedule row := by
    intro row hMem
    unfold l2Pool at hL2
    split_ifs at hL2 with hKnown
    · rcases except_bind_eq_ok hL2 with ⟨n, -, hL2⟩
      cases hL2
      rw [List.mem_singleton.mp hMem]
      exact batchVariant_varied ..
    · cases hL2
      exact absurd hMem List.not_mem_nil
  simp only [List.mem_append, List.mem_map, List.mem_cons,
    List.not_mem_nil, or_false, List.mem_filter,
    Bool.and_eq_true, decide_eq_true_eq] at hRow
  rcases hRow with
    (((((⟨factor, ⟨-, -, hFits⟩, rfl⟩ | ⟨n, -, rfl⟩) |
      ⟨n, -, rfl⟩) | rfl) | hMem) | ⟨s, hS, rfl⟩)
  · exact
      Varied.of_updates
        ((bounded_of_outer
          (Dvd.dvd.mul_right hAdmitted.outer factor) hFits).append
          (bounded_of_other schedule (by decide) (by decide) _))
        baseline _
  · exact stagingVariant_varied ..
  · exact lanesVariant_varied ..
  · exact batchVariant_varied ..
  · exact hL2Varied row hMem
  · refine shardsVariant_varied ?_ baseline
    rcases hS with rfl | rfl | rfl | rfl
    · omega
    · omega
    · omega
    · omega

----------------
-- The Envelope
----------------

/- The six variables of an environment. -/
def allowedKeys : List String :=
  microKey :: tunableKeys

/- What an admitted schedule allows an environment to hold. -/
structure WithinEnvelope
    (shape : SearchGeometry)
    (micro : Nat)
    (baseline : Environment)
    (schedule : Schedule)
    (environment : Environment) : Prop where
  keys : (environment.map Prod.fst).Perm allowedKeys
  values :
    ∀ entry ∈ environment,
      Text.allDigits entry.2.toList = true ∧
        ∃ n, parseU64 entry.2 = some n ∧ 0 < n ∧ n ≤ 2 ^ 40
  inference :
    environment.lookup microKey = baseline.lookup microKey
  outer :
    ∃ n, valueOf environment outerKey = .ok n ∧
      micro * shape.rowFactor ∣ n
  flush :
    ∃ n, valueOf environment batchKey = .ok n ∧
      schedule.batch ≤ n
  lanes : ∃ n, valueOf environment lanesKey = .ok n ∧ 1 ≤ n
  shards :
    ∃ n, valueOf environment shardsKey = .ok n ∧ 1 ≤ n ∧
      n ≤ max schedule.shards schedule.maxShards

/- A validated environment holds a positive number at each key. -/
structure Validated
    (micro : Nat)
    (environment : Environment) : Prop where
  length : environment.length = 6
  inference : environment.lookup microKey = some (numeral micro)
  entries : ∀ entry ∈ environment, validEntry entry = true

theorem validated_of_ok
    (hRun : validateEnvironment environment micro = .ok ()) :
    Validated micro environment := by
  unfold validateEnvironment at hRun
  split_ifs at hRun with hHead hEntries
  push Not at hHead
  exact
    ⟨hHead.1, hHead.2.2.2, List.all_eq_true.mp hEntries⟩

theorem of_validEntry
    {entry : String × String}
    (hEntry : validEntry entry = true) :
    entry.1 ∈ allowedKeys ∧
      Text.allDigits entry.2.toList = true ∧
        ∃ n, parseU64 entry.2 = some n ∧ 0 < n ∧ n ≤ 2 ^ 40 := by
  simp only [validEntry, Bool.and_eq_true, Bool.or_eq_true,
    List.contains_iff_mem, beq_iff_eq, Option.any_eq_true,
    decide_eq_true_eq] at hEntry
  rcases hEntry with ⟨⟨hKey, hDigits⟩, hValue⟩
  refine ⟨?_, hDigits, hValue⟩
  rw [allowedKeys, List.mem_cons]
  exact hKey.symm

theorem Validated.keys
    (hValid : Validated micro environment)
    (hKeyed : environment.Keyed) :
    (environment.map Prod.fst).Perm allowedKeys := by
  have hSub : environment.map Prod.fst ⊆ allowedKeys := by
    intro key hMem
    rcases List.mem_map.mp hMem with ⟨entry, hEntry, rfl⟩
    exact (of_validEntry (hValid.entries entry hEntry)).1
  refine (List.subperm_of_subset hKeyed hSub).perm_of_length_le ?_
  rw [List.length_map, hValid.length]
  exact Nat.le_refl 6

/- Each of the six variables is a positive number. -/
theorem Validated.valueOf
    (hValid : Validated micro environment)
    (hKeyed : environment.Keyed)
    {key : String}
    (hKey : key ∈ allowedKeys) :
    ∃ n, valueOf environment key = .ok n ∧ 0 < n ∧
      n ≤ 2 ^ 40 := by
  have hMem := (hValid.keys hKeyed).mem_iff.mpr hKey
  rcases (KeyedList.mem_keys_iff hKeyed key).mp hMem with
    ⟨value, hLookup⟩
  have hEntry := KeyedList.mem_of_lookup hLookup
  rcases of_validEntry (hValid.entries _ hEntry) with
    ⟨-, -, n, hParse, hPos, hLe⟩
  refine ⟨n, ?_, hPos, hLe⟩
  rw [Calibration.valueOf, hLookup, Option.bind_some, hParse]
  rfl

theorem valueOf_of_numeral
    {key : String}
    {n : Nat}
    (hLookup : environment.lookup key = some (numeral n))
    (hFits : n < 2 ^ 64) :
    valueOf environment key = .ok n := by
  rw [valueOf, hLookup, Option.bind_some, parseU64_numeral hFits]
  rfl

theorem valueOf_congr
    {a b : Environment}
    {key : String}
    (hSame : a.lookup key = b.lookup key) :
    valueOf a key = valueOf b key := by
  rw [valueOf, valueOf, hSame]

/- What the schedule takes over from a valid baseline. -/
structure Scheduled
    (shape : SearchGeometry)
    (micro : Nat)
    (baseline : Environment)
    (schedule : Schedule) : Prop where
  admitted : schedule.Admitted micro shape
  valid : Validated micro baseline
  outer : valueOf baseline outerKey = .ok schedule.outer
  shards : valueOf baseline shardsKey = .ok schedule.shards
  batch : valueOf baseline batchKey = .ok schedule.batch

theorem okOr_eq_ok
    {ε α : Type}
    {error : ε}
    {value : Option α}
    {a : α}
    (hRun : okOr error value = .ok a) :
    value = some a := by
  cases value with
  | none => cases hRun
  | some b =>
      cases hRun
      rfl

theorem scheduled_of_scheduleOf
    {hardware : Hardware}
    (hKeyed : baseline.Keyed)
    (hRun :
      scheduleOf shape hardware baseline micro = .ok schedule) :
    Scheduled shape micro baseline schedule := by
  unfold scheduleOf at hRun
  rcases except_bind_eq_ok hRun with ⟨_, hValid, hRun⟩
  rcases except_bind_eq_ok hRun with ⟨outer, hOuter, hRun⟩
  rcases except_bind_eq_ok hRun with ⟨shards, hShards, hRun⟩
  rcases except_bind_eq_ok hRun with ⟨staging, -, hRun⟩
  rcases except_bind_eq_ok hRun with ⟨lanes, -, hRun⟩
  rcases except_bind_eq_ok hRun with ⟨batch, hBatch, hRun⟩
  rcases except_bind_eq_ok hRun with ⟨quantum, hQuantum, hRun⟩
  split_ifs at hRun with hMultiple
  cases hRun
  have hProduct := okOr_eq_ok hQuantum
  unfold checkedMul at hProduct
  split_ifs at hProduct with hFits
  have hBaseline := validated_of_ok hValid
  rcases
    hBaseline.valueOf hKeyed
      (by decide : shardsKey ∈ allowedKeys) with
    ⟨n, hN, hPos, hLe⟩
  rw [hShards] at hN
  have hShardsEq := Except.ok.inj hN
  refine ⟨⟨?_, ?_, ?_, ?_, ?_, ?_⟩, hBaseline, hOuter, hShards,
    hBatch⟩
  · exact (Option.some.inj hProduct).symm
  · dsimp only
    rw [← Option.some.inj hProduct]
    exact hFits
  · exact Nat.dvd_of_mod_eq_zero (not_not.mp hMultiple)
  · dsimp only
    omega
  · dsimp only
    omega
  · exact Nat.min_le_right ..

/- A validated variant with enough flush is inside the envelope. -/
theorem Varied.within
    (hKeyed : baseline.Keyed)
    (hScheduled : Scheduled shape micro baseline schedule)
    (hVaried : Varied baseline schedule row)
    (hValid : Validated micro row.environment)
    {flush : Nat}
    (hFlush : valueOf row.environment batchKey = .ok flush)
    (hEnough : schedule.batch ≤ flush) :
    WithinEnvelope shape micro baseline schedule
      row.environment := by
  rcases hVaried with ⟨updates, hRow, hOuters, hShards⟩
  have hAdmitted := hScheduled.admitted
  have hRowKeyed : row.environment.Keyed := by
    rw [hRow]
    exact variant_keyed hKeyed row.name updates
  have hMost :
      max schedule.shards schedule.maxShards < 2 ^ 64 := by
    have hFit := hAdmitted.shardsFit
    have hMax := hAdmitted.maxShards
    omega
  refine
    { keys := hValid.keys hRowKeyed
      values := fun entry hMem =>
        (of_validEntry (hValid.entries entry hMem)).2
      inference := by
        rw [hValid.inference, hScheduled.valid.inference]
      outer := ?_
      flush := ⟨flush, hFlush, hEnough⟩
      lanes := ?_
      shards := ?_ }
  · rw [← hAdmitted.quantum]
    rcases
      variant_lookup (fun n => schedule.quantum ∣ n ∧ n < 2 ^ 64)
        baseline row.name outerKey hOuters with
      hOld | ⟨n, ⟨hDvd, hFits⟩, hNew⟩
    · refine ⟨schedule.outer, ?_, hAdmitted.outer⟩
      rw [← hRow] at hOld
      rw [valueOf_congr hOld, hScheduled.outer]
    · rw [← hRow] at hNew
      exact ⟨n, valueOf_of_numeral hNew hFits, hDvd⟩
  · rcases
      hValid.valueOf hRowKeyed
        (by decide : lanesKey ∈ allowedKeys) with
      ⟨n, hN, hPos, -⟩
    exact ⟨n, hN, hPos⟩
  · rcases
      hValid.valueOf hRowKeyed
        (by decide : shardsKey ∈ allowedKeys) with
      ⟨n, hN, hPos, -⟩
    refine ⟨n, hN, hPos, ?_⟩
    rcases
      variant_lookup
        (fun n => n ≤ max schedule.shards schedule.maxShards)
        baseline row.name shardsKey hShards with
      hOld | ⟨m, hLe, hNew⟩
    · rw [← hRow] at hOld
      rw [valueOf_congr hOld, hScheduled.shards] at hN
      rw [← Except.ok.inj hN]
      exact Nat.le_max_left ..
    · rw [← hRow] at hNew
      rw [valueOf_of_numeral hNew (by omega)] at hN
      rw [← Except.ok.inj hN]
      exact hLe

----------------
-- The Short List
----------------

/- At most ten fine candidates, or four coarse ones. -/
def listLimit (fine : Bool) : Nat :=
  if fine then 10 else 4

/- A row that is kept, or only named. -/
def Listed
    (list : Shortlist)
    (row : ProposedProfile) : Prop :=
  row ∈ list.candidates ∨ row.name ∈ list.omitted

/- One row is skipped, named, or kept. -/
theorem consider_cases
    {batch : Nat}
    {fine : Bool}
    {priority : List String}
    {list list' : Shortlist}
    (hStep :
      consider micro batch fine priority list row = .ok list') :
    Validated micro row.environment ∧
      ∃ flush, valueOf row.environment batchKey = .ok flush ∧
        ((flush < batch ∧ list' = list) ∨
          (list.used.any row.environment.same = true ∧
            list' = list) ∨
          (batch ≤ flush ∧
            list.used.any row.environment.same = false ∧
            list' =
              { list with
                used := row.environment :: list.used
                omitted := list.omitted ++ [row.name] }) ∨
          (batch ≤ flush ∧
            list.used.any row.environment.same = false ∧
            list.candidates.length < listLimit fine ∧
            ∃ families,
              list' =
                { used := row.environment :: list.used
                  families := families
                  candidates := list.candidates ++ [row]
                  omitted := list.omitted })) := by
  unfold consider at hStep
  rcases except_bind_eq_ok hStep with ⟨_, hValid, hStep⟩
  rcases except_bind_eq_ok hStep with ⟨flush, hFlush, hStep⟩
  refine ⟨validated_of_ok hValid, flush, hFlush, ?_⟩
  dsimp only at hStep
  by_cases hSkip :
      flush < batch ∨ list.used.any row.environment.same = true
  · rw [if_pos hSkip] at hStep
    cases hStep
    rcases hSkip with hFew | hUsed
    · exact Or.inl ⟨hFew, rfl⟩
    · exact Or.inr (Or.inl ⟨hUsed, rfl⟩)
  · rw [if_neg hSkip] at hStep
    push Not at hSkip
    have hNew := Bool.eq_false_of_not_eq_true hSkip.2
    by_cases hFull : listLimit fine ≤ list.candidates.length
    · rw [listLimit] at hFull
      rw [if_pos hFull] at hStep
      cases hStep
      exact Or.inr (Or.inr (Or.inl ⟨hSkip.1, hNew, rfl⟩))
    · have hRoom : ¬(if fine then 10 else 4) ≤
          list.candidates.length := hFull
      rw [if_neg hRoom] at hStep
      cases fine with
      | true =>
          rw [if_pos rfl] at hStep
          cases hStep
          exact
            Or.inr (Or.inr (Or.inr
              ⟨hSkip.1, hNew, Nat.lt_of_not_le hFull,
                list.families, rfl⟩))
      | false =>
          rw [if_neg Bool.false_ne_true] at hStep
          by_cases hKnown :
              list.families.contains (family priority row.name) =
                true
          · rw [if_pos hKnown] at hStep
            cases hStep
            exact Or.inr (Or.inr (Or.inl ⟨hSkip.1, hNew, rfl⟩))
          · rw [if_neg hKnown] at hStep
            cases hStep
            exact
              Or.inr (Or.inr (Or.inr
                ⟨hSkip.1, hNew, Nat.lt_of_not_le hFull, _, rfl⟩))

/- Enough flush, and no environment of the list is the same. -/
def Fresh
    (batch : Nat)
    (environments : List Environment)
    (row : ProposedProfile) : Prop :=
  (∃ flush, valueOf row.environment batchKey = .ok flush ∧
    batch ≤ flush) ∧
    ∀ environment ∈ environments,
      row.environment.same environment = false

/- What holds after the rows seen so far. -/
structure Shortlisted
    (micro batch : Nat)
    (fine : Bool)
    (priority : List String)
    (start : List Environment)
    (seen : List ProposedProfile)
    (list : Shortlist) : Prop where
  started : ∀ environment ∈ start, environment ∈ list.used
  used :
    ∀ environment ∈ list.used,
      environment ∈ start ∨
        environment ∈ seen.map ProposedProfile.environment
  kept :
    ∀ row ∈ list.candidates,
      row ∈ seen ∧ row.environment ∈ list.used ∧
        Validated micro row.environment ∧ Fresh batch start row
  distinct :
    list.candidates.Pairwise fun a b =>
      b.environment.same a.environment = false
  short : list.candidates.length ≤ listLimit fine
  families : fine = false → OneEach priority list
  covered :
    ∀ before row after,
      seen = before ++ row :: after →
        Fresh batch
            (start ++ before.map ProposedProfile.environment)
            row →
          Listed list row

theorem Shortlisted.nil
    (micro batch : Nat)
    (fine : Bool)
    (priority : List String)
    (start : List Environment) :
    Shortlisted micro batch fine priority start []
      { used := start
        families := []
        candidates := []
        omitted := [] } where
  started := fun _ hMem => hMem
  used := fun _ hMem => Or.inl hMem
  kept := fun _ hMem => absurd hMem List.not_mem_nil
  distinct := List.Pairwise.nil
  short := Nat.zero_le _
  families := fun _ =>
    ⟨List.nodup_nil, fun _ hMem => absurd hMem List.not_mem_nil⟩
  covered := fun _ _ _ hSplit =>
    absurd (congrArg List.length hSplit) (by simp)

section Step

variable {batch : Nat}
variable {fine : Bool}
variable {priority : List String}
variable {start : List Environment}
variable {seen : List ProposedProfile}
variable {list list' : Shortlist}
/- A row that is not kept leaves all but the coverage as it was. -/
theorem Shortlisted.unkept
    (hList :
      Shortlisted micro batch fine priority start seen list)
    (hStarted : ∀ environment ∈ list.used, environment ∈ list'.used)
    (hUsed :
      ∀ environment ∈ list'.used,
        environment ∈ list.used ∨ environment = row.environment)
    (hCandidates : list'.candidates = list.candidates)
    (hFamilies : fine = false → OneEach priority list')
    (hOmitted : ∀ name ∈ list.omitted, name ∈ list'.omitted)
    (hRow :
      Fresh batch
          (start ++ seen.map ProposedProfile.environment) row →
        Listed list' row) :
    Shortlisted micro batch fine priority start (seen ++ [row])
      list' where
  started := fun environment hMem =>
    hStarted environment (hList.started environment hMem)
  used := by
    intro environment hMem
    rw [List.map_append, List.mem_append]
    rcases hUsed environment hMem with hOld | rfl
    · rcases hList.used environment hOld with hStart | hSeen
      · exact Or.inl hStart
      · exact Or.inr (Or.inl hSeen)
    · exact Or.inr (Or.inr (List.mem_singleton.mpr rfl))
  kept := by
    intro other hMem
    rw [hCandidates] at hMem
    rcases hList.kept other hMem with ⟨hSeen, hOld, hRest⟩
    exact
      ⟨List.mem_append_left _ hSeen, hStarted _ hOld, hRest⟩
  distinct := hCandidates ▸ hList.distinct
  short := hCandidates ▸ hList.short
  families := hFamilies
  covered := by
    intro before other after hSplit hFresh
    rcases List.eq_nil_or_concat after with rfl | ⟨rest, x, rfl⟩
    · rcases List.append_inj' hSplit rfl with ⟨rfl, hLast⟩
      cases hLast
      exact hRow hFresh
    · rw [List.concat_eq_append, ← List.cons_append,
        ← List.append_assoc] at hSplit
      rcases List.append_inj' hSplit rfl with ⟨hSeen, -⟩
      rcases hList.covered before other rest hSeen hFresh with
        hKept | hNamed
      · exact Or.inl (hCandidates ▸ hKept)
      · exact Or.inr (hOmitted _ hNamed)

/- A used environment keeps a row from being fresh. -/
theorem Shortlisted.not_fresh
    (hList :
      Shortlisted micro batch fine priority start seen list)
    (hUsed : list.used.any row.environment.same = true) :
    ¬Fresh batch
        (start ++ seen.map ProposedProfile.environment) row := by
  rintro ⟨-, hNone⟩
  rcases List.any_eq_true.mp hUsed with ⟨environment, hMem, hSame⟩
  have hOther :=
    hNone environment
      (List.mem_append.mpr (hList.used environment hMem))
  rw [hSame] at hOther
  cases hOther

/- One row more. -/
theorem Shortlisted.consider
    (hList :
      Shortlisted micro batch fine priority start seen list)
    (hStep :
      consider micro batch fine priority list row = .ok list') :
    Shortlisted micro batch fine priority start (seen ++ [row])
      list' := by
  rcases consider_cases hStep with
    ⟨hValid, flush, hFlush, hCases⟩
  have hOneEach : fine = false → OneEach priority list' := by
    rintro rfl
    exact (hList.families rfl).consider hStep
  rcases hCases with ⟨hFew, rfl⟩ | ⟨hUsed, rfl⟩ |
    ⟨hEnough, hNew, rfl⟩ |
    ⟨hEnough, hNew, hRoom, families, rfl⟩
  · refine
      hList.unkept (fun _ hMem => hMem) (fun _ hMem => Or.inl hMem)
        rfl hOneEach (fun _ hMem => hMem) ?_
    rintro ⟨⟨n, hN, hLe⟩, -⟩
    rw [hFlush] at hN
    cases hN
    omega
  · exact
      hList.unkept (fun _ hMem => hMem) (fun _ hMem => Or.inl hMem)
        rfl hOneEach (fun _ hMem => hMem)
        fun hFresh => absurd hFresh (hList.not_fresh hUsed)
  · refine
      hList.unkept (fun _ hMem => List.mem_cons_of_mem _ hMem)
        (fun environment hMem => ?_) rfl hOneEach
        (fun _ hMem => List.mem_append_left _ hMem) fun _ =>
          Or.inr
            (List.mem_append_right _ (List.mem_singleton.mpr rfl))
    exact (List.mem_cons.mp hMem).symm
  · have hApart :
        ∀ environment ∈ list.used,
          row.environment.same environment = false :=
      fun environment hMem =>
        Bool.eq_false_of_not_eq_true
          (List.any_eq_false.mp hNew environment hMem)
    have hKeep := hList.kept
    refine
      { started := fun environment hMem =>
          List.mem_cons_of_mem _ (hList.started environment hMem)
        used := ?_
        kept := ?_
        distinct := ?_
        short := ?_
        families := hOneEach
        covered := ?_ }
    · intro environment hMem
      rw [List.map_append, List.mem_append]
      rcases List.mem_cons.mp hMem with rfl | hOld
      · exact Or.inr (Or.inr (List.mem_singleton.mpr rfl))
      · rcases hList.used environment hOld with hStart | hSeen
        · exact Or.inl hStart
        · exact Or.inr (Or.inl hSeen)
    · intro other hMem
      rcases List.mem_append.mp hMem with hOld | hLast
      · rcases hKeep other hOld with ⟨hSeen, hUsed, hRest⟩
        exact
          ⟨List.mem_append_left _ hSeen,
            List.mem_cons_of_mem _ hUsed, hRest⟩
      · rw [List.mem_singleton.mp hLast]
        exact
          ⟨List.mem_append_right _ (List.mem_singleton.mpr rfl),
            List.mem_cons_self, hValid, ⟨flush, hFlush, hEnough⟩,
            fun environment hMem =>
              hApart environment (hList.started environment hMem)⟩
    · refine
        List.pairwise_append.mpr
          ⟨hList.distinct, List.pairwise_singleton .., ?_⟩
      intro other hOld last hLast
      rw [List.mem_singleton.mp hLast]
      exact hApart _ (hKeep other hOld).2.1
    · rw [List.length_append, List.length_singleton]
      exact hRoom
    · intro before other after hSplit hFresh
      rcases List.eq_nil_or_concat after with
        rfl | ⟨rest, x, rfl⟩
      · rcases List.append_inj' hSplit rfl with ⟨-, hLast⟩
        cases hLast
        exact
          Or.inl
            (List.mem_append_right _ (List.mem_singleton.mpr rfl))
      · rw [List.concat_eq_append, ← List.cons_append,
          ← List.append_assoc] at hSplit
        rcases List.append_inj' hSplit rfl with ⟨hSeen, -⟩
        rcases hList.covered before other rest hSeen hFresh with
          hKept | hNamed
        · exact Or.inl (List.mem_append_left _ hKept)
        · exact Or.inr hNamed

end Step

----------------
-- The Proposals
----------------

/- The order in which the pool is considered. -/
def ordered
    (priority : List String)
    (pool : List ProposedProfile) : List ProposedProfile :=
  pool.insertionSort fun a b =>
    family priority a.name ≤ family priority b.name

/- The short list and the pool it was taken from. -/
structure Enclosed
    (shape : SearchGeometry)
    (micro : Nat)
    (baseline : Environment)
    (schedule : Schedule)
    (fine : Bool)
    (seen : List Environment)
    (priority : List String)
    (pool : List ProposedProfile)
    (result : Proposals) : Prop where
  inside :
    ∀ row ∈ result.candidates, row ∈ pool ∧
      WithinEnvelope shape micro baseline schedule row.environment
  distinct :
    result.candidates.Pairwise fun a b =>
      ¬a.environment.Same b.environment
  unseen :
    ∀ row ∈ result.candidates,
      ∀ environment ∈ baseline :: seen,
        ¬row.environment.Same environment
  short : result.candidates.length ≤ listLimit fine
  families :
    fine = false →
      (result.candidates.map fun row =>
        family priority row.name).Nodup
  others :
    ∀ before row after,
      ordered priority pool = before ++ row :: after →
        (∃ flush, valueOf row.environment batchKey = .ok flush ∧
          schedule.batch ≤ flush) →
        (∀ environment ∈ baseline :: seen,
          ¬row.environment.Same environment) →
        (∀ other ∈ before,
          ¬row.environment.Same other.environment) →
          row ∈ result.candidates ∨ row.name ∈ result.omitted

/- Every proposal is inside the envelope of its baseline. -/
theorem proposals_within
    (shape : SearchGeometry)
    (hardware : Hardware)
    (service : ServiceEnvelope)
    (fine : Bool)
    {baseline : Environment}
    (hBaseline : baseline.Keyed)
    {seen : List Environment}
    (hSeen : ∀ environment ∈ seen, environment.Keyed)
    {result : Proposals}
    (hRun :
      proposals shape baseline hardware service fine seen =
        .ok result) :
    ∃ micro schedule pool regime,
      valueOf baseline microKey = .ok micro ∧
        scheduleOf shape hardware baseline micro = .ok schedule ∧
        (if fine then finePool shape baseline schedule
            else coarsePool shape hardware baseline schedule) =
          .ok pool ∧
        regimeOf service = .ok regime ∧
        Enclosed shape micro baseline schedule fine seen regime.2
          pool result := by
  unfold proposals at hRun
  split at hRun
  · cases hRun
  rcases except_bind_eq_ok hRun with ⟨micro, hMicro, hRun⟩
  rcases except_bind_eq_ok hRun with ⟨schedule, hSchedule, hRun⟩
  rcases except_bind_eq_ok hRun with ⟨pool, hPool, hRun⟩
  rcases except_bind_eq_ok hRun with ⟨regime, hRegime, hRun⟩
  rcases except_bind_eq_ok hRun with ⟨list, hRows, hRun⟩
  cases hRun
  refine
    ⟨micro, schedule, pool, regime, hMicro, hSchedule, hPool,
      hRegime, ?_⟩
  have hList :=
    @foldlM_eq_ok _ _ _
      (Shortlisted micro schedule.batch fine regime.2
        (baseline :: seen)) _
      (fun _ _ _ _ hList hStep => hList.consider hStep) [] _ _ _
      (Shortlisted.nil ..) hRows
  rw [List.nil_append] at hList
  have hScheduled := scheduled_of_scheduleOf hBaseline hSchedule
  have hVaried : ∀ row ∈ pool, Varied baseline schedule row := by
    intro row hMem
    cases fine with
    | true => exact finePool_varied hScheduled.admitted hPool hMem
    | false => exact coarsePool_varied hScheduled.admitted hPool hMem
  have hKeyed : ∀ row ∈ pool, row.environment.Keyed := by
    intro row hMem
    rcases hVaried row hMem with ⟨updates, hRow, -⟩
    rw [hRow]
    exact variant_keyed hBaseline row.name updates
  have hStart :
      ∀ environment ∈ baseline :: seen, environment.Keyed :=
    List.forall_mem_cons.mpr ⟨hBaseline, hSeen⟩
  have hOrder : ∀ row, row ∈ ordered regime.2 pool ↔ row ∈ pool :=
    fun row => (List.perm_insertionSort _ pool).mem_iff
  -- lists compare as maps where every variable is set once
  have hSame :
      ∀ {a b : Environment}, a.Keyed → b.Keyed →
        (a.same b = false ↔ ¬a.Same b) := by
    intro a b hA hB
    rw [← Environment.same_iff hA hB, Bool.not_eq_true]
  have hKept :
      ∀ row ∈ list.candidates, row ∈ pool :=
    fun row hMem => (hOrder row).mp (hList.kept row hMem).1
  exact
    { inside := by
        intro row hMem
        rcases hList.kept row hMem with
          ⟨-, -, hValid, ⟨flush, hFlush, hEnough⟩, -⟩
        exact
          ⟨hKept row hMem,
            (hVaried row (hKept row hMem)).within hBaseline
              hScheduled hValid hFlush hEnough⟩
      distinct := by
        refine hList.distinct.imp_of_mem ?_
        intro a b hA hB hApart hBoth
        exact
          (hSame (hKeyed b (hKept b hB))
            (hKeyed a (hKept a hA))).mp hApart hBoth.symm
      unseen := by
        intro row hMem environment hOld
        rcases hList.kept row hMem with ⟨-, -, -, -, hApart⟩
        exact
          (hSame (hKeyed row (hKept row hMem))
            (hStart environment hOld)).mp (hApart environment hOld)
      short := hList.short
      families := fun hCoarse => (hList.families hCoarse).nodup
      others := by
        intro before row after hSplit hEnough hUnseen hFirst
        have hMem : row ∈ pool := by
          rw [← hOrder, hSplit]
          exact List.mem_append_right _ List.mem_cons_self
        refine hList.covered before row after hSplit ⟨hEnough, ?_⟩
        intro environment hOld
        rcases List.mem_append.mp hOld with hOld | hOld
        · exact
            (hSame (hKeyed row hMem)
              (hStart environment hOld)).mpr
              (hUnseen environment hOld)
        · rcases List.mem_map.mp hOld with ⟨other, hOther, rfl⟩
          have hPoolOther : other ∈ pool := by
            rw [← hOrder, hSplit]
            exact List.mem_append_left _ hOther
          exact
            (hSame (hKeyed row hMem)
              (hKeyed other hPoolOther)).mpr
              (hFirst other hOther) }

/- A cube search of 4096 states on one device. -/
def cubeGeometry : SearchGeometry where
  beam := 4096
  world := 1
  moves := 24
  alignment := 64
  rowFactor := 1

/- A device with thirty-two processors. -/
def smallHardware : Hardware where
  smCount := 32
  l2Bytes := 4194304

/- The environment of the cube. -/
def cubeBaseline : Environment :=
  [(microKey, "4"), (outerKey, "8"), (shardsKey, "2"),
    (stagingKey, "2"), (lanesKey, "1"), (batchKey, "64")]

/- Every stage takes as long as inference. -/
def evenService : ServiceEnvelope where
  serviceEnvelopeSeconds := Text.Double.ofNat 1
  serviceWorkSeconds := Text.Double.ofNat 1
  downstreamServiceWorkSeconds := Text.Double.ofNat 1
  inferenceSeconds := Text.Double.ofNat 1
  stream3Seconds := Text.Double.ofNat 1
  stream4Seconds := Text.Double.ofNat 1
  transportSeconds := Text.Double.ofNat 1
  unionSeconds := Text.Double.ofNat 1
  scope := "service"

/- What is proposed for it. -/
def cubeProposals : Except ContractError Proposals :=
  proposals cubeGeometry cubeBaseline smallHardware evenService
    false [cubeBaseline]

theorem proposals_within_cube :
    ∃ result, cubeProposals = .ok result ∧
      result.candidates.length = 4 ∧
      ∀ row ∈ result.candidates,
        ¬row.environment.Same cubeBaseline := by
  have hRun :
      cubeProposals.toOption.map
          (fun result => result.candidates.length) =
        some 4 := by
    decide +kernel
  rcases Option.map_eq_some_iff.mp hRun with
    ⟨result, hResult, hLength⟩
  have hOk : cubeProposals = .ok result := by
    cases hCase : cubeProposals with
    | ok other =>
        rw [hCase] at hResult
        exact congrArg Except.ok (Option.some.inj hResult)
    | error error =>
        rw [hCase] at hResult
        cases hResult
  have hKeyed : cubeBaseline.Keyed := by
    unfold Environment.Keyed
    decide
  have hSeen : ∀ environment ∈ [cubeBaseline], environment.Keyed :=
    List.forall_mem_singleton.mpr hKeyed
  rcases
    proposals_within cubeGeometry smallHardware evenService false
      hKeyed hSeen hOk with
    ⟨micro, schedule, pool, regime, -, -, -, -, hEnclosed⟩
  exact
    ⟨result, hOk, hLength, fun row hMem =>
      hEnclosed.unseen row hMem cubeBaseline List.mem_cons_self⟩

end Calibration

end BeamSearch
