import BeamSearch.Calibration.ComponentTuning

/-
  Component evidence in the pipeline cache.

  The validator recounts a selection from its recorded trials:
  the names, the samples, every service, and the winner. What a
  complete tuning returns passes it.

  Main declarations:
    * `PipelineCache.validateComponents`
    * `Accepted`
    * `Recorded`
    * `validateComponents_run`
-/

namespace BeamSearch

open Hoare

namespace Calibration

namespace PipelineCache

open ComponentTuning
open Text (Double numeral ofDecimal)

----------------
-- The Validator
----------------

/- The one error of the cache. -/
def invalid : RuntimeError :=
  .message "invalid or incomplete component cache"

/- Two finite numbers, equal up to a part in 10 ^ 12. -/
def close (a b : Double) : Bool :=
  a.isFinite && b.isFinite &&
    Double.lessEqual (Double.abs (a - b))
      (Double.max (Double.max (Double.abs a) (Double.abs b))
          (ofDecimal false 1 (10 ^ 300)) *
        ofDecimal false 1 (10 ^ 12))

/- Two envelopes agree, number by number. -/
def serviceMatches (left right : ServiceEnvelope) : Bool :=
  left.scope == right.scope &&
    (left.values.zip right.values).all fun pair =>
      close pair.1 pair.2

/- The names and samples of the trials that were read again. -/
structure Recount where
  names : List String
  samples : List Measurement

/- A trial is read again as it was measured. -/
def recheck
    (config : TuneConfig)
    (recount : Recount)
    (trial : Trial) : Except RuntimeError Recount :=
  if recount.names.contains trial.name then
    .error invalid
  else
    let names := recount.names ++ [trial.name]
    if trial.rejected.isSome then
      .ok { recount with names := names }
    else do
      let more ← validateTrial config trial
      let actual ← fullService config trial
      if trial.estimate.any fun claimed =>
          serviceMatches claimed actual then
        .ok
          { names := names
            samples := recount.samples ++ more }
      else
        .error invalid

/-
  A stored selection must be one that the tuning could have
  returned.
-/
def validateComponents
    (config : TuneConfig)
    (data : Selection) : Except RuntimeError Unit :=
  if data.phase ≠ "component_calibrated" ∨
      data.pipelineVerified = true ∨
      data.searchComplete = false ∨
      data.searchPolicy ≠ policy ∨
      data.workloadParents ≠ config.beam ∨
      data.requestedBeamEffective ≠ config.beam ∨
      data.tested.head?.map Trial.name ≠ some "baseline" then
    .error invalid
  else do
    ofContract (validateEnvironment data.environment config.micro)
    let recount ←
      data.tested.foldlM (recheck config)
        { names := []
          samples := [] }
    let selected ←
      ofContract
        (select recount.samples "baseline" (ofDecimal false 5 100))
    let chosen ←
      okOr invalid
        (data.tested.find? fun r => r.name == selected.1.profile)
    if selected.1.profile ≠ data.selection ∨
        chosen.environment.same data.environment = false ∨
        chosen.estimate.any
            (fun s => serviceMatches s data.estimate) = false then
      .error invalid
    else
      .ok ()

----------------
-- Equal Services Match
----------------

theorem close_self
    {a : Double}
    (hFinite : a.isFinite = true) :
    close a a = true := by
  have hAbs := Double.isUnsigned_abs hFinite
  have hTiny :
      (ofDecimal false 1 (10 ^ 300)).isUnsigned = true := by
    decide +kernel
  have hPart :
      (ofDecimal false 1 (10 ^ 12)).isUnsigned = true := by
    decide +kernel
  rw [close, hFinite, Double.sub_self hFinite, Bool.and_self,
    Bool.true_and]
  exact
    Double.zero_lessEqual_mul
      (Double.isUnsigned_max (Double.isUnsigned_max hAbs hAbs)
        hTiny)
      hPart

theorem all_close_self
    {values : List Double}
    (hFinite : ∀ value ∈ values, value.isFinite = true) :
    ((values.zip values).all fun pair =>
      close pair.1 pair.2) = true := by
  induction values with
  | nil => rfl
  | cons value rest ih =>
      rw [List.forall_mem_cons] at hFinite
      rw [List.zip_cons_cons, List.all_cons,
        close_self hFinite.1, ih hFinite.2, Bool.and_self]

theorem serviceMatches_self
    {service : ServiceEnvelope}
    (hFinite :
      ∀ value ∈ service.values, value.isFinite = true) :
    serviceMatches service service = true := by
  rw [serviceMatches, beq_self_eq_true, Bool.true_and]
  exact all_close_self hFinite

----------------
-- Accepted Trials
----------------

/- What the tuner and the validator both compute from a trial. -/
structure Accepted
    (config : TuneConfig)
    (trial : Trial)
    (samples : List Measurement)
    (service : ServiceEnvelope) : Prop where
  rejected : trial.rejected = none
  estimate : trial.estimate = some service
  validated : validateTrial config trial = .ok samples
  recomputed : fullService config trial = .ok service
  environment :
    validateEnvironment trial.environment config.micro = .ok ()
  keys : (trial.environment.map Prod.fst).Nodup

section Programs

variable {σ α : Type}

theorem lift_eq_ok
    {result : Except RuntimeError α}
    {a : α}
    {machine machine' : ComponentTuning.Machine σ}
    (hRun : lift result machine = .ok a machine') :
    result = .ok a := by
  cases result with
  | ok b =>
      cases hRun
      rfl
  | error error => cases hRun

theorem attempt_eq_ok
    {program : Tuning σ α}
    {result : Except RuntimeError α}
    {machine machine' : ComponentTuning.Machine σ}
    (hRun : attempt program machine = .ok result machine')
    {a : α}
    (hResult : result = .ok a) :
    program machine = .ok a machine' := by
  cases hProgram : program machine with
  | ok b after =>
      rw [attempt, hProgram] at hRun
      cases hRun
      cases hResult
      rfl
  | error error after =>
      rw [attempt, hProgram] at hRun
      cases hRun
      cases hResult

end Programs

/- A normalized environment is valid, with six keys apart. -/
theorem normalizedEnvironment_eq_ok
    {config : TuneConfig}
    {plans : List Json}
    {environment : Environment}
    (hNormalized :
      normalizedEnvironment config plans = .ok environment) :
    validateEnvironment environment config.micro = .ok () ∧
      (environment.map Prod.fst).Nodup := by
  unfold normalizedEnvironment at hNormalized
  rcases except_bind_eq_ok hNormalized with ⟨plan, _, hRows⟩
  rcases except_bind_eq_ok hRows with ⟨rows, _, hBuilt⟩
  rcases except_bind_eq_ok hBuilt with ⟨_, hValid, hSame⟩
  cases hSame
  refine ⟨ofContract_eq_ok.mp hValid, ?_⟩
  simp only [List.map_cons, List.map_nil]
  decide

theorem accepted_of_measureProfile
    {σ : Type}
    {evaluator : Evaluator σ}
    {config : TuneConfig}
    {name : String}
    {environment : Environment}
    {trial : Trial}
    {machine machine' : ComponentTuning.Machine σ}
    (hRun :
      measureProfile evaluator config name environment machine =
        .ok trial machine') :
    trial.name = name ∧
      ∃ samples service,
        Accepted config trial samples service := by
  unfold measureProfile at hRun
  rcases bind_eq_ok hRun with ⟨_, _, _, hRun⟩
  rcases bind_eq_ok hRun with ⟨plans, _, _, hRun⟩
  rcases bind_eq_ok hRun with ⟨normalized, _, hNormal, hRun⟩
  rcases bind_eq_ok hRun with ⟨probe, _, _, hRun⟩
  rcases bind_eq_ok hRun with ⟨samples, _, hSamples, hRun⟩
  rcases bind_eq_ok hRun with ⟨service, _, hService, hRun⟩
  cases hRun
  rcases normalizedEnvironment_eq_ok (lift_eq_ok hNormal) with
    ⟨hValid, hKeys⟩
  exact
    ⟨rfl, samples, service,
      { rejected := rfl
        estimate := rfl
        validated := lift_eq_ok hSamples
        recomputed := lift_eq_ok hService
        environment := hValid
        keys := hKeys }⟩

----------------
-- Recorded Trials
----------------

theorem recheck_accepted
    {config : TuneConfig}
    {recount : Recount}
    {trial : Trial}
    {samples : List Measurement}
    {service : ServiceEnvelope}
    (hNew : trial.name ∉ recount.names)
    (hAccepted : Accepted config trial samples service) :
    recheck config recount trial =
      .ok
        { names := recount.names ++ [trial.name]
          samples := recount.samples ++ samples } := by
  have hMatches : serviceMatches service service = true := by
    rcases except_bind_eq_ok hAccepted.recomputed with
      ⟨found, _, hService⟩
    exact
      serviceMatches_self
        (isFinite_of_serviceEnvelope
          (ofContract_eq_ok.mp hService))
  have hSeen : recount.names.contains trial.name = false := by
    simpa using hNew
  simp only [recheck, hSeen, hAccepted.rejected,
    Option.isSome_none, Bool.false_eq_true, if_false,
    hAccepted.validated, hAccepted.recomputed,
    hAccepted.estimate, except_ok_bind, Option.any_some,
    hMatches, if_true]

theorem recheck_rejected
    {config : TuneConfig}
    {recount : Recount}
    {trial : Trial}
    (hNew : trial.name ∉ recount.names)
    (hRejected : trial.rejected.isSome = true) :
    recheck config recount trial =
      .ok
        { recount with
          names := recount.names ++ [trial.name] } := by
  have hSeen : recount.names.contains trial.name = false := by
    simpa using hNew
  simp only [recheck, hSeen, hRejected, Bool.false_eq_true,
    if_false, if_true]

/- The validator's recount of the trials ends in the walk's samples. -/
structure Recorded
    (config : TuneConfig)
    (names : List String)
    (walk : Walk) : Prop where
  names_eq : walk.tested.map Trial.name = names
  recount :
    walk.tested.foldlM (recheck config)
        { names := []
          samples := [] } =
      .ok
        { names := names
          samples := walk.samples }
  settled :
    ∀ trial ∈ walk.tested, trial.estimate = none ∨
      ∃ samples service, Accepted config trial samples service

namespace Recorded

variable {config : TuneConfig}
variable {names : List String}
variable {walk : Walk}

theorem start
    {trial : Trial}
    {samples : List Measurement}
    {service : ServiceEnvelope}
    (hAccepted : Accepted config trial samples service)
    (complete : Bool) :
    Recorded config [trial.name]
      { tested := [trial]
        samples := samples
        complete := complete } := by
  refine ⟨rfl, ?_, ?_⟩
  · rw [List.foldlM_cons,
      recheck_accepted List.not_mem_nil hAccepted]
    rfl
  · intro other hMem
    rw [List.mem_singleton.mp hMem]
    exact Or.inr ⟨samples, service, hAccepted⟩

/- One more trial, whatever the validator makes of it. -/
theorem extend
    (hRecorded : Recorded config names walk)
    {trial : Trial}
    {samples : List Measurement}
    (hRecheck :
      recheck config
          { names := names
            samples := walk.samples } trial =
        .ok
          { names := names ++ [trial.name]
            samples := samples })
    (hSettled :
      trial.estimate = none ∨
        ∃ samples service,
          Accepted config trial samples service) :
    Recorded config (names ++ [trial.name])
      { walk with
        tested := walk.tested ++ [trial]
        samples := samples } := by
  refine ⟨?_, ?_, ?_⟩
  · rw [List.map_append, hRecorded.names_eq, List.map_singleton]
  · rw [List.foldlM_append, hRecorded.recount, except_ok_bind,
      List.foldlM_cons, hRecheck]
    rfl
  · intro other hMem
    rcases List.mem_append.mp hMem with hOld | hLast
    · exact hRecorded.settled other hOld
    · rw [List.mem_singleton.mp hLast]
      exact hSettled

end Recorded

----------------
-- The Names Of The Trials
----------------

theorem coarseName_ne_baseline (proposal : ProposedProfile) :
    coarseName proposal ≠ "baseline" := by
  intro hSame
  have hTexts := congrArg String.toList hSame
  rw [coarseName, String.toList_append] at hTexts
  have hHead := congrArg List.head? hTexts
  revert hHead
  exact of_decide_eq_false rfl

theorem coarseName_inj
    {a b : ProposedProfile}
    (hSame : coarseName a = coarseName b) :
    a.name = b.name := by
  have hTexts := congrArg String.toList hSame
  rw [coarseName, coarseName, String.toList_append,
    String.toList_append] at hTexts
  exact String.toList_injective (List.append_cancel_left hTexts)

/- Proposals to come have new names, apart from each other. -/
structure Fresh
    (names : List String)
    (proposals : List ProposedProfile) : Prop where
  seen : names.Nodup
  apart : (proposals.map ProposedProfile.name).Nodup
  new : ∀ proposal ∈ proposals, coarseName proposal ∉ names

theorem Fresh.next
    {names : List String}
    {proposal : ProposedProfile}
    {rest : List ProposedProfile}
    (hFresh : Fresh names (proposal :: rest)) :
    Fresh (names ++ [coarseName proposal]) rest := by
  have hNew := hFresh.new proposal List.mem_cons_self
  have hApart := hFresh.apart
  rw [List.map_cons, List.nodup_cons] at hApart
  refine ⟨?_, hApart.2, ?_⟩
  · refine hFresh.seen.append (List.nodup_singleton _) ?_
    intro name hOld hLast
    rw [List.mem_singleton.mp hLast] at hOld
    exact hNew hOld
  · intro other hOther hMem
    rcases List.mem_append.mp hMem with hOld | hLast
    · exact hFresh.new other (List.mem_cons_of_mem _ hOther) hOld
    · apply hApart.1
      rw [← coarseName_inj (List.mem_singleton.mp hLast)]
      exact List.mem_map_of_mem hOther

----------------
-- The Run
----------------

section Run

variable {σ : Type}
variable {evaluator : Evaluator σ}
variable {clock : Nat → Nat}
variable {deadline : Nat}
variable {config : TuneConfig}

/- Accepted or refused, a proposal is recorded under its name. -/
theorem recorded_tryProposals
    {proposals : List ProposedProfile}
    {names : List String}
    {walk walk' : Walk}
    {machine machine' : ComponentTuning.Machine σ}
    (hRecorded : Recorded config names walk)
    (hFresh : Fresh names proposals)
    (hRun :
      tryProposals evaluator clock deadline config proposals walk
          machine =
        .ok walk' machine') :
    ∃ names', names <+: names' ∧ names'.Nodup ∧
      Recorded config names' walk' := by
  induction proposals generalizing names walk machine with
  | nil =>
      cases hRun
      exact ⟨names, List.prefix_rfl, hFresh.seen, hRecorded⟩
  | cons proposal rest ih =>
      unfold tryProposals at hRun
      rcases bind_eq_ok hRun with ⟨time, _, _, hLate⟩
      split_ifs at hLate with hDeadline
      · cases hLate
        exact
          ⟨names, List.prefix_rfl, hFresh.seen,
            hRecorded.names_eq, hRecorded.recount,
            hRecorded.settled⟩
      rcases bind_eq_ok hLate with
        ⟨result, measured, hAttempt, hOutcome⟩
      have hNew := hFresh.new proposal List.mem_cons_self
      -- The names after this proposal extend those before it.
      have hStep :
          ∀ trial samples, trial.name = coarseName proposal →
            Recorded config (names ++ [trial.name])
              { walk with
                tested := walk.tested ++ [trial]
                samples := samples } →
            ∀ start,
              tryProposals evaluator clock deadline config rest
                  { walk with
                    tested := walk.tested ++ [trial]
                    samples := samples } start =
                .ok walk' machine' →
              ∃ names', names <+: names' ∧ names'.Nodup ∧
                Recorded config names' walk' := by
        intro trial samples hName hNext start hRest
        rw [hName] at hNext
        rcases ih hNext hFresh.next hRest with
          ⟨names', hPrefix, hNodup, hDone⟩
        exact
          ⟨names', (List.prefix_append _ _).trans hPrefix,
            hNodup, hDone⟩
      cases result with
      | ok trial =>
          rcases accepted_of_measureProfile
              (attempt_eq_ok hAttempt rfl) with
            ⟨hName, samples, service, hAccepted⟩
          rcases bind_eq_ok hOutcome with
            ⟨more, _, hMore, hRest⟩
          have hSame : samples = more :=
            Except.ok.inj
              (hAccepted.validated.symm.trans (lift_eq_ok hMore))
          rw [← hSame] at hRest
          refine hStep trial _ hName ?_ _ hRest
          refine
            hRecorded.extend (recheck_accepted ?_ hAccepted)
              (Or.inr ⟨samples, service, hAccepted⟩)
          rw [hName]
          exact hNew
      | error error =>
          cases hRefusal : refusal error with
          | none =>
              simp only [hRefusal] at hOutcome
              cases hOutcome
          | some reason =>
              simp only [hRefusal] at hOutcome
              refine
                hStep
                  (rejectedTrial (coarseName proposal)
                    proposal.environment reason)
                  walk.samples rfl ?_ _ hOutcome
              exact
                hRecorded.extend (recheck_rejected hNew rfl)
                  (Or.inl rfl)

/- The baseline that counts was accepted under its name. -/
theorem accepted_of_settle
    {base : Trial}
    {samples : List Measurement}
    {service : ServiceEnvelope}
    {start : Start}
    {machine machine' : ComponentTuning.Machine σ}
    (hName : base.name = "baseline")
    (hAccepted : Accepted config base samples service)
    (hRun :
      settle evaluator clock deadline config base samples
          machine =
        .ok start machine') :
    start.base.name = "baseline" ∧
      ∃ service,
        Accepted config start.base start.samples service := by
  unfold settle at hRun
  cases hEstimate : Calibration.estimate "baseline" samples with
  | ok value =>
      simp only [hEstimate] at hRun
      cases hRun
      exact ⟨hName, service, hAccepted⟩
  | error error =>
      simp only [hEstimate] at hRun
      split_ifs at hRun with hOther
      · cases hRun
      rcases bind_eq_ok hRun with ⟨time, _, _, hRun⟩
      split_ifs at hRun with hLate
      · cases hRun
      rcases bind_eq_ok hRun with ⟨retry, _, hRetry, hRun⟩
      rcases bind_eq_ok hRun with ⟨again, _, hAgain, hRun⟩
      rcases bind_eq_ok hRun with ⟨_, _, _, hRun⟩
      cases hRun
      rcases accepted_of_measureProfile hRetry with
        ⟨hRetryName, more, full, hFull⟩
      have hSame : more = again :=
        Except.ok.inj
          (hFull.validated.symm.trans (lift_eq_ok hAgain))
      rw [hSame] at hFull
      exact ⟨hRetryName, full, hFull⟩

/- The recorded trials give the recorded selection. -/
theorem validateComponents_selectionOf
    {names : List String}
    {start : Start}
    {shortlist : Proposals}
    {walk : Walk}
    {selection : Selection}
    (hRecorded : Recorded config names walk)
    (hFirst : names.head? = some "baseline")
    (hComplete : walk.complete = true)
    (hSelection :
      selectionOf config start shortlist walk = .ok selection) :
    validateComponents config selection = .ok () := by
  unfold selectionOf at hSelection
  rcases except_bind_eq_ok hSelection with
    ⟨selected, hSelected, hBest⟩
  rcases except_bind_eq_ok hBest with ⟨best, hBest, hService⟩
  rcases except_bind_eq_ok hService with
    ⟨service, hService, hFields⟩
  cases hFind :
      walk.tested.find?
        fun r => r.name == selected.1.profile with
  | none =>
      rw [hFind] at hBest
      cases hBest
  | some found =>
      rw [hFind] at hBest
      cases hBest
      cases hEstimate : best.estimate with
      | none =>
          rw [hEstimate] at hService
          cases hService
      | some value =>
          rw [hEstimate] at hService
          cases hService
          cases hFields
          have hFound := List.find?_some hFind
          have hProfile : best.name = selected.1.profile :=
            beq_iff_eq.mp hFound
          rcases hRecorded.settled best
              (List.mem_of_find?_eq_some hFind) with
            hNone | ⟨samples, claimed, hAccepted⟩
          · rw [hNone] at hEstimate
            cases hEstimate
          have hClaimed : claimed = service :=
            Option.some.inj
              (hAccepted.estimate.symm.trans hEstimate)
          rw [hClaimed] at hAccepted
          have hFinite : serviceMatches service service = true := by
            rcases except_bind_eq_ok hAccepted.recomputed with
              ⟨found, _, hFull⟩
            exact
              serviceMatches_self
                (isFinite_of_serviceEnvelope
                  (ofContract_eq_ok.mp hFull))
          have hHead :
              walk.tested.head?.map Trial.name =
                some "baseline" := by
            rw [← List.head?_map, hRecorded.names_eq, hFirst]
          unfold validateComponents
          rw [if_neg (by simp [hComplete, hHead])]
          simp only [hAccepted.environment, ofContract,
            except_ok_bind, hRecorded.recount]
          rw [ofContract_eq_ok.mp hSelected]
          simp only [except_ok_bind, hFind, okOr]
          rw [if_neg]
          simp [hProfile, hEstimate, hFinite,
            Environment.same_self hAccepted.keys]

theorem tested_of_selectionOf
    {start : Start}
    {shortlist : Proposals}
    {walk : Walk}
    {selection : Selection}
    (hSelection :
      selectionOf config start shortlist walk = .ok selection) :
    selection.tested = walk.tested ∧
      selection.searchComplete = walk.complete := by
  unfold selectionOf at hSelection
  rcases except_bind_eq_ok hSelection with ⟨_, _, hBest⟩
  rcases except_bind_eq_ok hBest with ⟨_, _, hService⟩
  rcases except_bind_eq_ok hService with ⟨_, _, hFields⟩
  cases hFields
  exact ⟨rfl, rfl⟩

theorem candidates_of_proposalsFor
    {base : Trial}
    {shortlist : Proposals}
    (hProposals : proposalsFor config base = .ok shortlist) :
    (shortlist.candidates.map ProposedProfile.name).Nodup := by
  unfold proposalsFor at hProposals
  rcases except_bind_eq_ok hProposals with ⟨_, _, hService⟩
  rcases except_bind_eq_ok hService with ⟨_, _, hShortlist⟩
  exact nodup_candidates (ofContract_eq_ok.mp hShortlist)

/- A complete tuning passes its own validator. -/
theorem validateComponents_run
    {baseline : Environment}
    {selection : Selection}
    {machine machine' : ComponentTuning.Machine σ}
    (hRun :
      run evaluator clock deadline config baseline machine =
        .ok selection machine')
    (hComplete : selection.searchComplete = true) :
    validateComponents config selection = .ok () ∧
      (selection.tested.map Trial.name).Nodup ∧
        selection.tested.head?.map Trial.name =
          some "baseline" := by
  unfold run at hRun
  split_ifs at hRun with hMalformed
  · cases hRun
  rcases bind_eq_ok hRun with ⟨time, _, _, hLate⟩
  split_ifs at hLate with hDeadline
  · cases hLate
  rcases bind_eq_ok hLate with ⟨first, _, hFirst, hSettling⟩
  rcases bind_eq_ok hSettling with
    ⟨samples, _, hSamples, hSettling⟩
  rcases bind_eq_ok hSettling with
    ⟨start, _, hSettle, hProposing⟩
  rcases bind_eq_ok hProposing with
    ⟨shortlist, _, hShortlist, hTrying⟩
  rcases bind_eq_ok hTrying with ⟨walk, _, hWalk, hSelecting⟩
  have hSelection := lift_eq_ok hSelecting
  -- The baseline, measured once or twice, opens the record.
  rcases accepted_of_measureProfile hFirst with
    ⟨hName, measured, service, hAccepted⟩
  have hSame : measured = samples :=
    Except.ok.inj
      (hAccepted.validated.symm.trans (lift_eq_ok hSamples))
  rw [hSame] at hAccepted
  rcases accepted_of_settle hName hAccepted hSettle with
    ⟨hBaseline, full, hFull⟩
  have hRecorded := Recorded.start hFull true
  rw [hBaseline] at hRecorded
  have hFresh : Fresh ["baseline"] shortlist.candidates :=
    { seen := List.nodup_singleton _
      apart := candidates_of_proposalsFor (lift_eq_ok hShortlist)
      new := fun proposal _ hMem =>
        coarseName_ne_baseline proposal
          (List.mem_singleton.mp hMem) }
  rcases recorded_tryProposals hRecorded hFresh hWalk with
    ⟨names, hPrefix, hNodup, hDone⟩
  have hHead : names.head? = some "baseline" := by
    rcases hPrefix with ⟨others, rfl⟩
    rfl
  rcases tested_of_selectionOf hSelection with
    ⟨hTested, hSearch⟩
  rw [hSearch] at hComplete
  refine
    ⟨validateComponents_selectionOf hDone hHead hComplete
      hSelection, ?_, ?_⟩
  · rw [hTested, hDone.names_eq]
    exact hNodup
  · rw [hTested, ← List.head?_map, hDone.names_eq, hHead]

end Run

----------------
-- One Rank
----------------

/- A configuration with one rank. -/
def loneConfig : TuneConfig where
  beam := 8
  moves := 2
  micro := 4
  rowFactor := 1
  inferenceSeconds := ofDecimal false 3 2
  hardware :=
    { smCount := 16
      l2Bytes := 0 }
  gpuUuids := ["GPU-a"]
  deviceIndices := [0]

/- The plan of that rank. -/
def lonePlan (staging : Nat) : Json :=
  .object
    [("GLOBAL_BEAM_WIDTH_EFFECTIVE", .integer 8),
      ("BEAM_WIDTH_ALIGNMENT", .integer 1),
      ("SHARD_COUNT", .integer 1), ("B_MICRO", .integer 4),
      ("WORLD_SIZE", .integer 1),
      ("STREAM4_BATCH_ALIGNMENT", .integer 1),
      ("LOCAL_RANK", .integer 0),
      ("estimated_required_device_bytes", .integer 1),
      ("gpu_budget_bytes", .integer 1),
      ("frontier_state_capacity", .integer 8),
      ("STREAM3_RING_SLOTS", .integer staging),
      ("STREAM4_BATCH_CANDIDATES", .integer 4),
      ("SHARD_CAPACITY_CANDIDATES", .integer 4),
      ("STREAM4_ACTIVE_SORT_SLOTS", .integer 1)]

/- Five times, equal or growing. -/
def loneTimes (steady : Bool) : Json :=
  .array
    ((List.range 5).map fun n =>
      .double (ofDecimal false (if steady then 1 else n + 1) 8))

/- Its measured row. -/
def loneRow (staging : Nat) (steady : Bool) : Json :=
  .object
    [("component_calibration", .bool true),
      ("correctness_passed", .bool true),
      ("full_step_verified", .bool false),
      ("rank", .integer 0),
      ("outer_candidates", .integer (8 * staging)),
      ("shard_capacity", .integer 4),
      ("sort_jobs_concurrent", .integer 1),
      ("stream3_seconds", loneTimes steady),
      ("stream4_group_seconds", loneTimes steady),
      ("union_seconds", loneTimes steady), ("transport", .array [])]

/- Its environment. -/
def loneEnvironment (staging : Nat) : Environment :=
  [(microKey, "4"), (outerKey, "4"), (shardsKey, "1"),
    (stagingKey, numeral staging), (lanesKey, "1"),
    (batchKey, "4")]

/- The baseline fits, and so does twice its staging. -/
def loneStaging (environment : Environment) : Option Nat :=
  [2, 4].find? fun staging =>
    environment.same (loneEnvironment staging)

/- Only the second measurement has steady times. -/
def loneEvaluator : Evaluator Nat where
  admission := fun environment measured =>
    match loneStaging environment with
    | some staging => (.ok [lonePlan staging], measured)
    | none =>
        (.error (.capacityRejected "out of memory"), measured)
  measure := fun environment _ measured =>
    let staging := (loneStaging environment).getD 2
    (.ok
      { rows := [loneRow staging (measured == 1)]
        telemetry := Telemetry.loneReceipt (Double.ofNat 5) },
      measured + 1)

/- A run of the tuning. -/
def loneRun :
    EStateM.Result RuntimeError (ComponentTuning.Machine Nat)
      Selection :=
  run loneEvaluator id 100 loneConfig (loneEnvironment 2)
    { evaluator := 0
      readings := 0 }

/- How the baseline was measured, and which trials passed. -/
def history (selection : Selection) :
    String × List (String × Bool) :=
  (selection.baselineRetry,
    selection.tested.map fun trial =>
      (trial.name, trial.rejected.isNone))

/- What a complete run tells about its trials. -/
def completedHistory
    (result :
      EStateM.Result RuntimeError (ComponentTuning.Machine Nat)
        Selection) :
    Option (String × List (String × Bool)) :=
  match result with
  | .ok selection _ =>
      if selection.searchComplete then some (history selection)
      else none
  | .error _ _ => none

theorem completedHistory_lone :
    completedHistory loneRun =
      some
        ("recovered_after_one_retry",
          [("baseline", true), ("coarse-shards-2", false),
            ("coarse-outer-8", false),
            ("coarse-staging-4", true)]) := by
  decide +kernel

/- The baseline is measured twice; two proposals are refused
before one is accepted. -/
theorem validateComponents_run_lone :
    ∃ selection machine,
      loneRun = .ok selection machine ∧
        selection.searchComplete = true ∧
          history selection =
            ("recovered_after_one_retry",
              [("baseline", true), ("coarse-shards-2", false),
                ("coarse-outer-8", false),
                ("coarse-staging-4", true)]) ∧
            validateComponents loneConfig selection =
              .ok () := by
  have hHistory := completedHistory_lone
  cases hRun : loneRun with
  | error error machine =>
      rw [hRun] at hHistory
      cases hHistory
  | ok selection machine =>
      rw [hRun, completedHistory] at hHistory
      split_ifs at hHistory with hComplete
      exact
        ⟨selection, machine, rfl, hComplete,
          Option.some.inj hHistory,
          (validateComponents_run hRun hComplete).1⟩

end PipelineCache

end Calibration

end BeamSearch
