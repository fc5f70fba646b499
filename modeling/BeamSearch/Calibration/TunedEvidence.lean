import BeamSearch.Calibration.ProfileCache
import BeamSearch.Lib.Hoare

/-
  A tuned selection is evidence for a cache.

  Every measurement the tuner asked for is a trial, kept with
  the samples and the reserve that were taken from it. Samples,
  records and telemetry of the progress are those of the trials,
  whatever the queue of candidates went through. The cache finds
  the trial of the selected batch again in the records.

  Main declarations:
    * `Trial`, `Sound`
    * `tuneLoop_triple`
    * `normalize_of_chosen`
    * `tune_evidence`
-/

namespace BeamSearch

open Hoare

namespace Calibration

namespace InferenceTuning

open Text (Double numeral numeral_injective parseU64)

variable {batch : Nat} {config : TuneConfig} {candidates : List Nat}

----------------
-- Valid Rows
----------------

/- The times of a row. -/
def secondsOf (row : Json) : List Json :=
  (Json.index "seconds" row).asArray.getD []

/- The time of a repetition; a missing one is no number. -/
def valueAt (repetition : Nat) (row : Json) : Double :=
  match secondsAt repetition row with
  | .ok value => value
  | .error _ => .nan

/- The peak of a row. -/
def rowPeak (row : Json) : Nat :=
  (Json.index "torch_reserved_peak_bytes" row).asU64.getD 0

/- What a row that was checked has. -/
structure Valid
    (rank batch parents : Nat)
    (row : Json) : Prop where
  batch : (Json.index "batch" row).asU64 = some batch
  parents : (Json.index "parents" row).asU64 = some parents
  device : device row = some rank
  times : timesOf row = .ok (secondsOf row).length
  seconds :
    ∀ repetition, repetition < (secondsOf row).length →
      secondsAt repetition row = .ok (valueAt repetition row)
  peak : peakOf row = .ok (rowPeak row)

theorem asF64_of_isPositive
    {value : Json}
    (hPositive : InferencePool.isPositive value = true) :
    ∃ seconds, asF64 value = some seconds := by
  rw [InferencePool.isPositive] at hPositive
  cases hValue : asF64 value with
  | none =>
      rw [hValue] at hPositive
      cases hPositive
  | some seconds => exact ⟨seconds, rfl⟩

/- A row that is accepted has everything that is read of it. -/
theorem valid_of_validateRow
    {row : Json}
    {rank parents : Nat}
    (hRow : validateRow row rank batch parents = .ok ()) :
    Valid rank batch parents row := by
  rw [validateRow] at hRow
  cases row with
  | object fields =>
      dsimp only [Json.asFields] at hRow
      cases hSeconds :
          (InferencePool.field fields "seconds").asArray with
      | none =>
          rw [InferencePool.validateReceipt, hSeconds] at hRow
          cases hRow
      | some values =>
          rw [InferencePool.validateReceipt, hSeconds] at hRow
          dsimp only at hRow
          split_ifs at hRow with hChecks
          simp only [not_or, not_not, Bool.not_eq_true,
            List.any_eq_false] at hChecks
          rcases hChecks with
            ⟨hBatch, hParents, hDevice, -, -, -, hPositive, hPeak⟩
          have hValues :
              (Json.index "seconds" (.object fields)).asArray =
                some values := hSeconds
          have hList : secondsOf (.object fields) = values := by
            rw [secondsOf, hValues, Option.getD_some]
          refine ⟨hBatch, hParents, hDevice, ?_, ?_, ?_⟩
          · rw [timesOf, hValues, hList]
            rfl
          · intro repetition hLess
            rw [hList] at hLess
            rcases @asF64_of_isPositive values[repetition]
              (by
                have hNot := hPositive values[repetition]
                  (List.getElem_mem hLess)
                simpa using hNot) with ⟨value, hValue⟩
            have hAt :
                secondsAt repetition (.object fields) =
                  .ok value := by
              rw [secondsAt, hValues]
              change
                (do
                  let entry ←
                    okOr
                      (RuntimeError.panicked "index out of bounds")
                      values[repetition]?
                  okOr unwrap (asF64 entry)) = _
              rw [List.getElem?_eq_getElem hLess]
              change okOr unwrap (asF64 values[repetition]) = _
              rw [hValue]
              rfl
            rw [valueAt, hAt]
          · rw [peakOf, rowPeak]
            cases hBytes :
                (Json.index "torch_reserved_peak_bytes"
                  (.object fields)).asU64 with
            | none => exact absurd hBytes hPeak
            | some bytes => rfl
  | _ => cases hRow

/- A checked row belongs to a rank of the world. -/
theorem valid_of_checkRow
    {row : Json}
    (hRow : checkRow config batch row = .ok ()) :
    ∃ rank, rank < config.world ∧
      validateRow row rank batch config.parents = .ok () ∧
        Valid rank batch config.parents row := by
  rw [checkRow] at hRow
  rcases except_bind_eq_ok hRow with ⟨rank, hRank, hValid⟩
  refine ⟨rank, ?_, hValid, valid_of_validateRow hValid⟩
  cases hDevice : (device row).filter
      fun r => decide (r < config.world) with
  | none =>
      rw [hDevice] at hRank
      cases hRank
  | some other =>
      rw [hDevice] at hRank
      cases hRank
      exact of_decide_eq_true (Option.filter_eq_some_iff.mp hDevice).2

----------------
-- What Complete Rows Give
----------------

/- The repetitions that all rows have. -/
def repeatsOf (rows : List Json) : Nat :=
  (rows.map fun row => (secondsOf row).length).min?.getD 0

/- The greatest peak of the rows. -/
def peakOver (rows : List Json) : Nat :=
  (rows.map rowPeak).max?.getD 0

/- The measurement of a repetition, for all rows together. -/
def measurementOf
    (name : String)
    (parents : Nat)
    (throttled : Bool)
    (rows : List Json)
    (repetition : Nat) : Measurement :=
  { profile := name
    parents
    secondsByRank := rows.map (valueAt repetition)
    correctnessPassed := true
    memoryAdmitted := true
    throttled }

/- The samples of some rows. -/
def samplesFrom
    (name : String)
    (parents : Nat)
    (throttled : Bool)
    (rows : List Json) : List Measurement :=
  (List.range (repeatsOf rows)).map
    (measurementOf name parents throttled rows)

section Rows

variable {parents : Nat}
variable {rows : List Json}

/- Rows that were checked, each for some rank. -/
def AllValid (batch parents : Nat) (rows : List Json) : Prop :=
  ∀ row ∈ rows, ∃ rank, Valid rank batch parents row

theorem min?_getD_le
    {values : List Nat}
    {n : Nat}
    (hMem : n ∈ values) :
    values.min?.getD 0 ≤ n := by
  cases hMin : values.min? with
  | none =>
      rw [List.min?_eq_none_iff] at hMin
      rw [hMin] at hMem
      cases hMem
  | some least =>
      exact (List.min?_eq_some_iff.mp hMin).2 n hMem

/- Every row of a valid probe has its times. -/
theorem mapM_timesOf (hValid : AllValid batch parents rows) :
    rows.mapM timesOf =
      .ok (rows.map fun row => (secondsOf row).length) :=
  mapM_of_forall_ok fun row hMem => by
    rcases hValid row hMem with ⟨rank, hRow⟩
    exact hRow.times

theorem mapM_peakOf (hValid : AllValid batch parents rows) :
    rows.mapM peakOf = .ok (rows.map rowPeak) :=
  mapM_of_forall_ok fun row hMem => by
    rcases hValid row hMem with ⟨rank, hRow⟩
    exact hRow.peak

/- Every repetition gives a sample. -/
theorem mapM_measurementAt
    (hValid : AllValid batch parents rows)
    (name : String)
    (total : Nat)
    (throttled : Bool) :
    (List.range (repeatsOf rows)).mapM
        (measurementAt name total throttled rows) =
      .ok (samplesFrom name total throttled rows) := by
  refine mapM_of_forall_ok fun repetition hMem => ?_
  have hSeconds :
      rows.mapM (secondsAt repetition) =
        .ok (rows.map (valueAt repetition)) := by
    refine mapM_of_forall_ok fun row hRow => ?_
    rcases hValid row hRow with ⟨rank, hOne⟩
    refine hOne.seconds repetition ?_
    have hLeast : repeatsOf rows ≤ (secondsOf row).length :=
      min?_getD_le (List.mem_map_of_mem hRow)
    exact (List.mem_range.mp hMem).trans_le hLeast
  rw [measurementAt, hSeconds]
  rfl

theorem min?_repeatsOf (hRows : rows ≠ []) :
    (rows.map fun row => (secondsOf row).length).min? =
      some (repeatsOf rows) := by
  cases rows with
  | nil => exact absurd rfl hRows
  | cons row rows => rfl

theorem max?_peakOver (hRows : rows ≠ []) :
    (rows.map rowPeak).max? = some (peakOver rows) := by
  cases rows with
  | nil => exact absurd rfl hRows
  | cons row rows => rfl

end Rows

----------------
-- Recording
----------------

/- The measurements of a complete probe. -/
def probeSamples
    (terms : Terms)
    (batch : Nat)
    (probe : ProbeResult) : List Measurement :=
  samplesFrom (numeral batch)
    (terms.config.parents * terms.config.world)
    (!isVerified terms probe) probe.rows

/- An error that is no panic. -/
def Honest {α : Type} (result : Except RuntimeError α) : Prop :=
  ∀ text, result ≠ .error (.panicked text)

/- Rows of a probe that were checked, each of its own rank. -/
structure Checked
    (terms : Terms)
    (batch : Nat)
    (probe : ProbeResult) : Prop where
  rows :
    ∀ row ∈ probe.rows, checkRow terms.config batch row = .ok ()
  devices : (probe.rows.map device).Nodup

section Recording

variable {terms : Terms}
variable {current : Nat}
variable {probe : ProbeResult}
variable {progress after : Progress}

/- The rows of a checked probe are valid. -/
theorem Checked.valid
    (hChecked : Checked terms batch probe) :
    AllValid batch terms.config.parents probe.rows := by
  intro row hMem
  rcases valid_of_checkRow (hChecked.rows row hMem) with
    ⟨rank, -, -, hValid⟩
  exact ⟨rank, hValid⟩

theorem rows_ne_nil
    (hWorld : 0 < terms.config.world)
    (hComplete : isComplete terms probe = true) :
    probe.rows ≠ [] := by
  rw [isComplete, Bool.and_eq_true, decide_eq_true_eq] at hComplete
  intro hNone
  rw [hNone, List.length_nil] at hComplete
  omega

theorem okOr_some
    {α : Type}
    (error : RuntimeError)
    (a : α) :
    okOr error (some a) = .ok a :=
  rfl

/- What a complete probe adds, if its reserve has a size. -/
theorem recordComplete_eq
    (hChecked : Checked terms batch probe)
    (hRows : probe.rows ≠ []) :
    recordComplete terms batch probe progress =
      (okOr (.message "inference reserve size overflow")
          (checkedAdd (peakOver probe.rows) reserveMargin)).map
        fun reserve =>
          { progress with
            rejected :=
              if isVerified terms probe then progress.rejected
              else
                Environment.insert (numeral batch)
                  "GPU telemetry missing, incomplete or throttled"
                  progress.rejected
            samples :=
              progress.samples ++ probeSamples terms batch probe
            reserves :=
              KeyedList.put (numeral batch) reserve
                progress.reserves } := by
  rw [recordComplete, mapM_timesOf hChecked.valid, except_ok_bind,
    min?_repeatsOf hRows, okOr_some, except_ok_bind,
    mapM_measurementAt hChecked.valid, except_ok_bind,
    mapM_peakOf hChecked.valid, except_ok_bind,
    max?_peakOver hRows, okOr_some, except_ok_bind]
  cases checkedAdd (peakOver probe.rows) reserveMargin with
  | none => rfl
  | some reserve => rfl

/-
  An incomplete probe changes nothing or drops the larger
  batches.
-/
theorem recordIncomplete_cases
    (hRun :
      recordIncomplete terms batch current probe progress =
        .ok after) :
    after = progress ∨ after = smallerOnly batch progress := by
  rw [recordIncomplete] at hRun
  split at hRun
  · split at hRun
    · cases hRun
    · exact .inr (Except.ok.inj hRun).symm
  · exact .inl (Except.ok.inj hRun).symm

theorem honest_recordIncomplete :
    Honest (recordIncomplete terms batch current probe progress) := by
  intro text hError
  rw [recordIncomplete] at hError
  split at hError
  · split at hError
    · cases hError
    · cases hError
  · cases hError

/- Two steps that raise no panic raise none together. -/
theorem honest_bind
    {α β : Type}
    {first : Except RuntimeError α}
    {next : α → Except RuntimeError β}
    (hFirst : Honest first)
    (hNext : ∀ a, first = .ok a → Honest (next a)) :
    Honest (first >>= next) := by
  cases hRun : first with
  | ok a => exact hNext a hRun
  | error error =>
      intro text hError
      rw [hRun] at hFirst
      exact hFirst text (congrArg Except.error
        (Except.error.inj hError))

theorem honest_okOr
    {α : Type}
    {error : RuntimeError}
    (hError : ∀ text, error ≠ .panicked text)
    (result : Option α) :
    Honest (okOr error result) := by
  intro text hSame
  cases result with
  | none => exact hError text (Except.error.inj hSame)
  | some a => cases hSame

theorem honest_ofContract
    {α : Type}
    (result : Except ContractError α) :
    Honest (ofContract result) := by
  intro text hSame
  cases result with
  | ok a => cases hSame
  | error error => cases hSame

theorem honest_validateRow
    (row : Json)
    (rank parents : Nat) :
    Honest (validateRow row rank batch parents) := by
  intro text hError
  rw [validateRow] at hError
  split at hError
  · cases hError
  · split at hError
    · cases hError
    · cases hError

theorem honest_forM
    {xs : List Json}
    {check : Json → Except RuntimeError Unit}
    (hEach : ∀ x, Honest (check x)) :
    Honest (xs.forM check) := by
  induction xs with
  | nil =>
      intro text hError
      cases hError
  | cons x xs ih =>
      rw [List.forM_eq_forM, List.forM_cons]
      exact honest_bind (hEach x) fun _ _ => ih

theorem forM_eq_ok
    {xs : List Json}
    {check : Json → Except RuntimeError Unit}
    (hRun : xs.forM check = .ok ()) :
    ∀ x ∈ xs, check x = .ok () := by
  induction xs with
  | nil =>
      intro x hMem
      cases hMem
  | cons x xs ih =>
      rw [List.forM_eq_forM, List.forM_cons] at hRun
      rcases except_bind_eq_ok hRun with ⟨_, hFirst, hRest⟩
      intro y hMem
      rcases List.mem_cons.mp hMem with rfl | hMem
      · exact hFirst
      · exact ih hRest y hMem

/- Distinct devices, as many as rows, are one for each row. -/
theorem nodup_devices
    {rows : List Json}
    (hRows : AllValid batch terms.config.parents rows)
    (hDistinct :
      (rows.filterMap device).dedup.length = rows.length) :
    (rows.map device).Nodup := by
  have hSome : ∀ row ∈ rows, ∃ rank, device row = some rank := by
    intro row hMem
    rcases hRows row hMem with ⟨rank, hValid⟩
    exact ⟨rank, hValid.device⟩
  have hMap : rows.map device =
      (rows.filterMap device).map some := by
    clear hRows hDistinct
    induction rows with
    | nil => rfl
    | cons row rows ih =>
        rcases hSome row List.mem_cons_self with ⟨rank, hRank⟩
        rw [List.map_cons, List.filterMap_cons_some hRank,
          List.map_cons, hRank,
          ih fun other hMem =>
            hSome other (List.mem_cons_of_mem _ hMem)]
  have hLength :
      (rows.filterMap device).length = rows.length := by
    have hSame := congrArg List.length hMap
    rw [List.length_map, List.length_map] at hSame
    exact hSame.symm
  have hDedup :
      (rows.filterMap device).dedup = rows.filterMap device :=
    (List.dedup_sublist _).eq_of_length
      (hDistinct.trans hLength.symm)
  rw [hMap]
  exact (hDedup ▸ List.nodup_dedup _).map
    (Option.some_injective Nat)

/- The evidence of a probe, apart from the queue. -/
structure Recorded
    (terms : Terms)
    (batch : Nat)
    (probe : ProbeResult)
    (progress after : Progress) : Prop where
  checked : Checked terms batch probe
  records : after.records = progress.records ++ probe.rows
  telemetry :
    after.telemetryRecords =
      KeyedList.put (numeral batch) probe.telemetry
        progress.telemetryRecords
  index : after.index = progress.index
  queued : after.refinementQueued = progress.refinementQueued
  outcome :
    (isComplete terms probe = true ∧
        after.candidates = progress.candidates ∧
        after.samples =
          progress.samples ++ probeSamples terms batch probe ∧
        ∃ reserve,
          checkedAdd (peakOver probe.rows) reserveMargin =
              some reserve ∧
            after.reserves =
              KeyedList.put (numeral batch) reserve
                progress.reserves) ∨
      (isComplete terms probe = false ∧
        (after.candidates = progress.candidates ∨
          after.candidates =
            (smallerOnly batch progress).candidates) ∧
        after.samples = progress.samples ∧
        after.reserves = progress.reserves)

/- A complete probe is recorded with its rows. -/
theorem recorded_of_recordProbe
    (hWorld : 0 < terms.config.world)
    (hRun :
      recordProbe terms batch current probe progress = .ok after) :
    Recorded terms batch probe progress after := by
  rw [recordProbe] at hRun
  rcases except_bind_eq_ok hRun with ⟨_, hRows, hRun⟩
  split at hRun
  · cases hRun
  rename_i hDistinct
  have hEach := forM_eq_ok hRows
  have hValid : AllValid batch terms.config.parents probe.rows :=
    fun row hMem => by
      rcases valid_of_checkRow (hEach row hMem) with
        ⟨rank, -, -, hRow⟩
      exact ⟨rank, hRow⟩
  have hChecked : Checked terms batch probe :=
    ⟨hEach, nodup_devices hValid (not_not.mp hDistinct)⟩
  rcases except_bind_eq_ok hRun with ⟨middle, hMiddle, hLast⟩
  cases hLast
  rw [recordOutcome] at hMiddle
  cases hComplete : isComplete terms probe with
  | true =>
      rw [hComplete, if_pos rfl, recordComplete_eq hChecked
        (rows_ne_nil hWorld hComplete)] at hMiddle
      cases hReserve :
          checkedAdd (peakOver probe.rows) reserveMargin with
      | none =>
          rw [hReserve] at hMiddle
          cases hMiddle
      | some reserve =>
          rw [hReserve] at hMiddle
          cases hMiddle
          exact ⟨hChecked, rfl, rfl, rfl, rfl,
            .inl ⟨hComplete, rfl, rfl, reserve, hReserve, rfl⟩⟩
  | false =>
      rw [hComplete, if_neg (by simp)] at hMiddle
      rcases recordIncomplete_cases hMiddle with rfl | rfl
      · exact ⟨hChecked, rfl, rfl, rfl, rfl,
          .inr ⟨hComplete, .inl rfl, rfl, rfl⟩⟩
      · exact ⟨hChecked, rfl, rfl, rfl, rfl,
          .inr ⟨hComplete, .inr rfl, rfl, rfl⟩⟩

/- Recording raises no panic. -/
theorem honest_recordProbe
    (hWorld : 0 < terms.config.world) :
    Honest (recordProbe terms batch current probe progress) := by
  rw [recordProbe]
  refine honest_bind (honest_forM fun row => ?_) ?_
  · rw [checkRow]
    exact honest_bind
      (honest_okOr (by simp) _)
      fun rank _ => honest_validateRow row rank _
  intro _ hRows
  split
  · intro text hError
    cases hError
  rename_i hDistinct
  have hEach := forM_eq_ok hRows
  have hValid : AllValid batch terms.config.parents probe.rows :=
    fun row hMem => by
      rcases valid_of_checkRow (hEach row hMem) with
        ⟨rank, -, -, hRow⟩
      exact ⟨rank, hRow⟩
  have hChecked : Checked terms batch probe :=
    ⟨hEach, nodup_devices hValid (not_not.mp hDistinct)⟩
  refine honest_bind ?_ ?_
  · rw [recordOutcome]
    cases hComplete : isComplete terms probe with
    | true =>
        rw [if_pos rfl, recordComplete_eq hChecked
          (rows_ne_nil hWorld hComplete)]
        intro text hError
        cases hReserve :
            checkedAdd (peakOver probe.rows) reserveMargin with
        | none =>
            rw [hReserve] at hError
            cases hError
        | some reserve =>
            rw [hReserve] at hError
            cases hError
    | false =>
        rw [if_neg (by simp)]
        exact honest_recordIncomplete
  · intro middle _ text hError
    cases hError

end Recording

----------------
-- The Queue
----------------

/- Measured batches are among those the queue went past. -/
structure Queue
    (cap : Nat)
    (measured candidates : List Nat)
    (index : Nat) : Prop where
  nodup : candidates.Nodup
  bounds : ∀ batch ∈ candidates, 0 < batch ∧ batch ≤ cap
  measured : List.Sublist measured (candidates.take index)

namespace Queue

variable {cap index : Nat}
variable {measured : List Nat}

theorem once
    (hQueue : Queue cap measured candidates index) :
    measured.Nodup :=
  hQueue.nodup.sublist
    (hQueue.measured.trans (List.take_sublist _ _))

theorem skip
    (hQueue : Queue cap measured candidates index) :
    Queue cap measured candidates (index + 1) :=
  ⟨hQueue.nodup, hQueue.bounds,
    hQueue.measured.trans
      (List.take_sublist_take_left (Nat.le_succ index))⟩

/- The next candidate is measured. -/
theorem take
    {batch : Nat}
    (hQueue : Queue cap measured candidates index)
    (hHere : candidates[index]? = some batch) :
    Queue cap (measured ++ [batch]) candidates (index + 1) := by
  refine ⟨hQueue.nodup, hQueue.bounds, ?_⟩
  rw [List.take_add_one, hHere]
  exact hQueue.measured.append_right [batch]

/- Refined candidates join the end of the queue. -/
theorem extend
    {refined : List Nat}
    (hQueue : Queue cap measured candidates index)
    (hNodup : refined.Nodup)
    (hNew :
      ∀ batch ∈ refined,
        0 < batch ∧ batch ≤ cap ∧ batch ∉ candidates) :
    Queue cap measured (candidates ++ refined) index := by
  refine ⟨?_, ?_, ?_⟩
  · refine List.nodup_append'.mpr ⟨hQueue.nodup, hNodup, ?_⟩
    intro batch hOld hMem
    exact (hNew batch hMem).2.2 hOld
  · intro batch hMem
    rcases List.mem_append.mp hMem with hMem | hMem
    · exact hQueue.bounds batch hMem
    · exact ⟨(hNew batch hMem).1, (hNew batch hMem).2.1⟩
  · refine hQueue.measured.trans ?_
    rw [List.take_append]
    exact List.sublist_append_left _ _

/- What comes next is replaced by a part of it. -/
theorem replace
    {later : List Nat}
    (hQueue : Queue cap measured candidates index)
    (hIndex : index ≤ candidates.length)
    (hNodup : later.Nodup)
    (hLater : ∀ batch ∈ later, batch ∈ candidates.drop index) :
    Queue cap measured (candidates.take index ++ later) index := by
  have hSplit :=
    (List.take_append_drop index candidates).symm ▸ hQueue.nodup
  rcases List.nodup_append'.mp hSplit with ⟨hFirst, -, hApart⟩
  refine ⟨?_, ?_, ?_⟩
  · refine List.nodup_append'.mpr ⟨hFirst, hNodup, ?_⟩
    intro batch hOld hMem
    exact hApart hOld (hLater batch hMem)
  · intro batch hMem
    rcases List.mem_append.mp hMem with hMem | hMem
    · exact hQueue.bounds batch (List.mem_of_mem_take hMem)
    · exact hQueue.bounds batch
        (List.mem_of_mem_drop (hLater batch hMem))
  · rw [List.take_append_of_le_length
      (by rw [List.length_take]; omega), List.take_take,
      Nat.min_self]
    exact hQueue.measured

end Queue

/- The smaller candidates stay in the queue. -/
theorem smallerOnly_spec
    {progress : Progress} :
    ∃ later, later.Nodup ∧
      (∀ b ∈ later,
        b ∈ progress.candidates.drop progress.index) ∧
      later.length ≤
        (progress.candidates.drop progress.index).length ∧
      (smallerOnly batch progress).candidates =
        progress.candidates.take progress.index ++ later := by
  refine ⟨_, ?_, ?_, ?_, rfl⟩
  · exact (List.perm_insertionSort _ _).nodup_iff.mpr
      (List.nodup_dedup _)
  · intro b hMem
    rw [List.mem_insertionSort, List.mem_dedup] at hMem
    exact (List.mem_filter.mp hMem).1
  · rw [List.length_insertionSort]
    exact ((List.dedup_sublist _).length_le).trans
      (List.length_filter_le _ _)

----------------
-- Trials
----------------

/- A batch and what was measured of it. -/
structure Trial where
  batch : Nat
  probe : ProbeResult

/- The samples of a trial, where its probe was complete. -/
def Trial.samples (terms : Terms) (trial : Trial) :
    List Measurement :=
  if isComplete terms trial.probe then
    probeSamples terms trial.batch trial.probe
  else []

/- The progress knows its trials, and nothing else. -/
structure Evident
    (terms : Terms)
    (probes : List Probe)
    (trials : List Trial)
    (progress : Progress) : Prop where
  asked : probes.map Probe.batch = trials.map Trial.batch
  logged :
    ∀ trial ∈ trials, ∃ probe ∈ probes,
      probe.batch = trial.batch ∧ probe.result = .ok trial.probe
  checked :
    ∀ trial ∈ trials, Checked terms trial.batch trial.probe
  records :
    progress.records = trials.flatMap fun trial => trial.probe.rows
  samples :
    progress.samples = trials.flatMap (Trial.samples terms)
  telemetry :
    ∀ trial ∈ trials,
      progress.telemetryRecords.lookup (numeral trial.batch) =
        some trial.probe.telemetry
  reserves :
    ∀ trial ∈ trials, isComplete terms trial.probe = true →
      ∃ reserve,
        checkedAdd (peakOver trial.probe.rows) reserveMargin =
            some reserve ∧
          progress.reserves.lookup (numeral trial.batch) =
            some reserve

section Trials

variable {terms : Terms}
variable {probes : List Probe}
variable {trials : List Trial}
variable {progress after : Progress}

/- A new trial is evident once its probe is recorded. -/
theorem Evident.record
    (hEvident : Evident terms probes trials progress)
    {batch capacity : Nat}
    {probe : ProbeResult}
    (hNew : batch ∉ probes.map Probe.batch)
    (hRecorded : Recorded terms batch probe progress after) :
    Evident terms (probes ++ [⟨batch, capacity, .ok probe⟩])
      (trials ++ [⟨batch, probe⟩]) after := by
  have hFresh : ∀ trial ∈ trials,
      numeral trial.batch ≠ numeral batch := by
    intro trial hMem hSame
    rw [hEvident.asked] at hNew
    refine hNew (List.mem_map.mpr ⟨trial, hMem, ?_⟩)
    exact numeral_injective hSame
  constructor
  case asked =>
    rw [List.map_append, List.map_append, hEvident.asked]
    rfl
  case logged =>
    intro trial hMem
    rcases List.mem_append.mp hMem with hMem | hMem
    · rcases hEvident.logged trial hMem with
        ⟨old, hOld, hBatch, hResult⟩
      exact ⟨old, List.mem_append_left _ hOld, hBatch, hResult⟩
    · cases List.mem_singleton.mp hMem
      exact ⟨⟨batch, capacity, .ok probe⟩, by simp, rfl, rfl⟩
  case checked =>
    intro trial hMem
    rcases List.mem_append.mp hMem with hMem | hMem
    · exact hEvident.checked trial hMem
    · cases List.mem_singleton.mp hMem
      exact hRecorded.checked
  case records =>
    rw [hRecorded.records, hEvident.records, List.flatMap_append,
      List.flatMap_singleton]
  case samples =>
    rw [List.flatMap_append, List.flatMap_singleton,
      ← hEvident.samples, Trial.samples]
    rcases hRecorded.outcome with
      ⟨hComplete, -, hSamples, -⟩ | ⟨hPartial, -, hSamples, -⟩
    · rw [if_pos hComplete, hSamples]
    · rw [if_neg (by rw [hPartial]; simp), List.append_nil,
        hSamples]
  case telemetry =>
    intro trial hMem
    rw [hRecorded.telemetry]
    rcases List.mem_append.mp hMem with hMem | hMem
    · rw [KeyedList.lookup_put_of_ne (hFresh trial hMem)]
      exact hEvident.telemetry trial hMem
    · cases List.mem_singleton.mp hMem
      exact KeyedList.lookup_put_self _ _ _
  case reserves =>
    intro trial hMem hComplete
    rcases List.mem_append.mp hMem with hMem | hMem
    · rcases hEvident.reserves trial hMem hComplete with
        ⟨reserve, hSize, hKept⟩
      refine ⟨reserve, hSize, ?_⟩
      rcases hRecorded.outcome with
        ⟨-, -, -, other, -, hPut⟩ | ⟨-, -, -, hSame⟩
      · rw [hPut, KeyedList.lookup_put_of_ne (hFresh trial hMem)]
        exact hKept
      · rw [hSame]
        exact hKept
    · cases List.mem_singleton.mp hMem
      rcases hRecorded.outcome with
        ⟨-, -, -, reserve, hSize, hPut⟩ | ⟨hPartial, -⟩
      · exact ⟨reserve, hSize, hPut ▸ KeyedList.lookup_put_self _ _ _⟩
      · rw [hPartial] at hComplete
        cases hComplete

/- Evidence is nothing but samples, records and two maps. -/
theorem Evident.same
    (hEvident : Evident terms probes trials progress)
    (hSamples : after.samples = progress.samples)
    (hRecords : after.records = progress.records)
    (hTelemetry :
      after.telemetryRecords = progress.telemetryRecords)
    (hReserves : after.reserves = progress.reserves) :
    Evident terms probes trials after :=
  { asked := hEvident.asked
    logged := hEvident.logged
    checked := hEvident.checked
    records := hRecords.trans hEvident.records
    samples := hSamples.trans hEvident.samples
    telemetry := hTelemetry ▸ hEvident.telemetry
    reserves := hReserves ▸ hEvident.reserves }

end Trials

----------------
-- Single Turns
----------------

/- What holds of the asked batches, however a run ends. -/
structure Asked {σ : Type} (machine : Machine σ) : Prop where
  once : (machine.probes.map Probe.batch).Nodup
  fitted : ∀ probe ∈ machine.probes, probe.batch ≤ probe.capacity

/- A stop with neither a panic nor a want of turns. -/
def Fair (stop : Stop) : Prop :=
  stop ≠ .unfinished ∧
    ∀ text, stop ≠ .error (.panicked text)

/- What a stop leaves. -/
def Stopped {σ : Type} (stop : Stop) (machine : Machine σ) :
    Prop :=
  Fair stop ∧ Asked machine

/-
  What the loop keeps: the batches asked are those of the
  queue, and the samples those of the probes.
-/
structure Sound
    {σ : Type}
    (terms : Terms)
    (progress : Progress)
    (machine : Machine σ) : Prop where
  queue :
    Queue terms.config.cap (machine.probes.map Probe.batch)
      progress.candidates progress.index
  fitted : ∀ probe ∈ machine.probes, probe.batch ≤ probe.capacity
  evident :
    ∃ trials, Evident terms machine.probes trials progress

/- The queue is about to go past a batch. -/
structure Facing
    {σ : Type}
    (terms : Terms)
    (batch current : Nat)
    (progress : Progress)
    (machine : Machine σ) : Prop where
  queue :
    Queue terms.config.cap (machine.probes.map Probe.batch)
      progress.candidates current
  here : progress.candidates[current]? = some batch
  index : progress.index = current + 1
  fitted : ∀ probe ∈ machine.probes, probe.batch ≤ probe.capacity
  evident :
    ∃ trials, Evident terms machine.probes trials progress

/- Turns that are left: six batches may still be added. -/
def weight (progress : Progress) : Nat :=
  progress.candidates.length - progress.index +
    if progress.refinementQueued then 0 else 6

/- The progress of a turn. -/
def Turn.progress : Turn → Progress
  | .done progress => progress
  | .more progress => progress

section Turns

variable {σ : Type}
variable {terms : Terms}
variable {progress after : Progress}
variable {machine : Machine σ}
variable {current : Nat}
variable {winner : Estimate}

theorem Sound.asked
    (hSound : Sound terms progress machine) : Asked machine :=
  ⟨hSound.queue.once, hSound.fitted⟩

theorem Facing.asked
    (hFacing : Facing terms batch current progress machine) :
    Asked machine :=
  ⟨hFacing.queue.once, hFacing.fitted⟩

/- A batch that is passed over was not measured. -/
theorem Facing.skipped
    (hFacing : Facing terms batch current progress machine) :
    Sound terms progress machine where
  queue := by
    rw [hFacing.index]
    exact hFacing.queue.skip
  fitted := hFacing.fitted
  evident := hFacing.evident

theorem Sound.ticked
    (hSound : Sound terms progress machine)
    (readings : Nat) :
    Sound terms progress { machine with readings } :=
  ⟨hSound.queue, hSound.fitted, hSound.evident⟩

theorem Facing.ticked
    (hFacing : Facing terms batch current progress machine)
    (readings : Nat) :
    Facing terms batch current progress
      { machine with readings } :=
  ⟨hFacing.queue, hFacing.here, hFacing.index, hFacing.fitted,
    hFacing.evident⟩

/- Only the evidence and the queue count. -/
theorem Sound.same
    (hSound : Sound terms progress machine)
    (hCandidates : after.candidates = progress.candidates)
    (hIndex : after.index = progress.index)
    (hSamples : after.samples = progress.samples)
    (hRecords : after.records = progress.records)
    (hTelemetry :
      after.telemetryRecords = progress.telemetryRecords)
    (hReserves : after.reserves = progress.reserves) :
    Sound terms after machine := by
  rcases hSound.evident with ⟨trials, hEvident⟩
  refine ⟨?_, hSound.fitted, trials,
    hEvident.same hSamples hRecords hTelemetry hReserves⟩
  rw [hCandidates, hIndex]
  exact hSound.queue

/- A refinement queues at most six new candidates. -/
theorem refine_spec
    (hRun : refine terms winner progress = .ok after) :
    ∃ refined,
      refined.Nodup ∧
        (∀ b ∈ refined,
          0 < b ∧ b ≤ terms.config.cap ∧
            b ∉ progress.candidates) ∧
        refined.length ≤ 6 ∧
        after =
          { progress with
            refined
            candidates := progress.candidates ++ refined
            refinementQueued := true } := by
  rw [refine] at hRun
  rcases except_bind_eq_ok hRun with ⟨b, -, hRun⟩
  rcases except_bind_eq_ok hRun with ⟨refined, hRefined, hLast⟩
  rcases refinementBatches_spec (ofContract_eq_ok.mp hRefined) with
    ⟨hNodup, hNew, hLength⟩
  cases hLast
  exact ⟨refined, hNodup, hNew, hLength, rfl⟩

theorem honest_refine
    (winner : Estimate) :
    Honest (refine terms winner progress) := by
  rw [refine]
  refine honest_bind (honest_okOr (by simp) _) fun b _ => ?_
  refine honest_bind (honest_ofContract _) fun refined _ => ?_
  intro text hError
  cases hError

/- What refining leaves, at the place the queue is at. -/
theorem weight_refine
    (hQueued : progress.refinementQueued = false)
    (hRun : refine terms winner progress = .ok after) :
    weight after ≤ weight progress ∧
      after.refinementQueued = true := by
  rcases refine_spec hRun with ⟨refined, -, -, hLength, rfl⟩
  refine ⟨?_, rfl⟩
  rw [weight, weight, hQueued]
  simp only [List.length_append, if_true, Bool.false_eq_true,
    if_false]
  omega

/- A refinement keeps the books of a turn. -/
theorem Facing.refined
    (hFacing : Facing terms batch current progress machine)
    (hRun : refine terms winner progress = .ok after) :
    Facing terms batch current after machine := by
  rcases refine_spec hRun with ⟨refined, hNodup, hNew, -, rfl⟩
  rcases hFacing.evident with ⟨trials, hEvident⟩
  refine ⟨hFacing.queue.extend hNodup hNew, ?_, hFacing.index,
    hFacing.fitted, trials, hEvident.same rfl rfl rfl rfl⟩
  rcases List.getElem?_eq_some_iff.mp hFacing.here with ⟨hIn, -⟩
  change (progress.candidates ++ refined)[current]? = some batch
  rw [List.getElem?_append_left hIn]
  exact hFacing.here

/- A refinement keeps the books between the turns. -/
theorem Sound.refined
    (hSound : Sound terms progress machine)
    (hRun : refine terms winner progress = .ok after) :
    Sound terms after machine := by
  rcases refine_spec hRun with ⟨refined, hNodup, hNew, -, rfl⟩
  rcases hSound.evident with ⟨trials, hEvident⟩
  exact ⟨hSound.queue.extend hNodup hNew, hSound.fitted, trials,
    hEvident.same rfl rfl rfl rfl⟩

/- The early refinement happens once. -/
theorem refineEarly_spec
    (hRun : refineEarly terms progress = .ok after) :
    after = progress ∨
      (progress.refinementQueued = false ∧
        ∃ winner, refine terms winner progress = .ok after) := by
  rw [refineEarly] at hRun
  split at hRun
  · exact .inl (Except.ok.inj hRun).symm
  · rename_i hQueued
    split at hRun
    · exact .inl (Except.ok.inj hRun).symm
    · exact .inr ⟨Bool.not_eq_true _ ▸ hQueued, _, hRun⟩

theorem honest_refineEarly :
    Honest (refineEarly terms progress) := by
  rw [refineEarly]
  split
  · intro text hError
    cases hError
  · split
    · intro text hError
      cases hError
    · exact honest_refine _

/- The batch the queue faces is measured and recorded. -/
theorem Facing.recorded
    {capacity : Nat}
    {probe : ProbeResult}
    {readings : Nat}
    {state : σ}
    (hFacing : Facing terms batch current progress machine)
    (hFits : batch ≤ capacity)
    (hRecorded : Recorded terms batch probe progress after) :
    Sound terms after
        { machine with
          evaluator := state
          readings
          probes :=
            machine.probes ++ [⟨batch, capacity, .ok probe⟩] } ∧
      weight after ≤ weight progress := by
  have hTaken := hFacing.queue.take hFacing.here
  have hMeasured :
      (machine.probes ++
          [(⟨batch, capacity, .ok probe⟩ : Probe)]).map
          Probe.batch =
        machine.probes.map Probe.batch ++ [batch] := by
    rw [List.map_append]
    rfl
  have hNew : batch ∉ machine.probes.map Probe.batch := by
    have hOnce := hTaken.once
    intro hMem
    exact (List.nodup_append'.mp hOnce).2.2 hMem
      (List.mem_singleton_self batch)
  rcases List.getElem?_eq_some_iff.mp hFacing.here with ⟨hIn, -⟩
  rcases hFacing.evident with ⟨trials, hEvident⟩
  have hQueue :
      Queue terms.config.cap
          (machine.probes.map Probe.batch ++ [batch])
          after.candidates after.index ∧
        after.candidates.length ≤ progress.candidates.length := by
    rw [hRecorded.index, hFacing.index]
    rcases hRecorded.outcome with
      ⟨-, hSame, -⟩ | ⟨-, hSame | hSmaller, -⟩
    · rw [hSame]
      exact ⟨hTaken, Nat.le_refl _⟩
    · rw [hSame]
      exact ⟨hTaken, Nat.le_refl _⟩
    · rcases @smallerOnly_spec batch progress with
        ⟨later, hNodup, hLater, hLength, hCandidates⟩
      rw [hSmaller, hCandidates, hFacing.index]
      rw [hFacing.index] at hLater hLength
      refine ⟨hTaken.replace hIn hNodup hLater, ?_⟩
      rw [List.length_drop] at hLength
      rw [List.length_append, List.length_take]
      omega
  refine ⟨⟨?_, ?_, ?_⟩, ?_⟩
  · rw [hMeasured]
    exact hQueue.1
  · intro other hMem
    rcases List.mem_append.mp hMem with hMem | hMem
    · exact hFacing.fitted other hMem
    · cases List.mem_singleton.mp hMem
      exact hFits
  · exact ⟨_, hEvident.record hNew hRecorded⟩
  · rw [weight, weight, hRecorded.index, hRecorded.queued]
    have hLess := hQueue.2
    omega

end Turns

----------------
-- Operations
----------------

section Operations

variable {σ : Type}
variable (evaluator : Evaluator σ)
variable (clock : Clock)
variable {terms : Terms}
variable {progress : Progress}
variable {current : Nat}

/- A pure step keeps what its caller knows. -/
theorem lift_triple
    {α : Type}
    {P : Machine σ → Prop}
    {Q : α → Machine σ → Prop}
    {result : Except RuntimeError α}
    (hHonest : Honest result)
    (hAsked : ∀ machine, P machine → Asked machine)
    (hOk :
      ∀ a machine, result = .ok a → P machine → Q a machine) :
    Triple P (lift result) Q Stopped := by
  intro machine hP
  cases result with
  | ok a => exact hOk a machine rfl hP
  | error error =>
      refine ⟨⟨?_, ?_⟩, hAsked machine hP⟩
      · intro hStop
        cases hStop
      · intro text hStop
        cases hStop
        exact hHonest text rfl

theorem now_facing :
    Triple (Facing terms batch current progress) (now clock)
      (fun _ (machine : Machine σ) =>
        Facing terms batch current progress machine)
      Stopped :=
  fun _ hFacing => hFacing.ticked _

theorem now_sound :
    Triple (Sound terms progress) (now clock)
      (fun _ (machine : Machine σ) =>
        Sound terms progress machine)
      Stopped :=
  fun _ hSound => hSound.ticked _

theorem pastBoundary_triple :
    Triple (Facing terms batch current progress)
      (pastBoundary clock terms current progress)
      (fun _ (machine : Machine σ) =>
        Facing terms batch current progress machine)
      Stopped := by
  rw [pastBoundary]
  apply Triple.branch
  · exact fun _ => Triple.value fun _ hFacing => hFacing
  · intro _
    apply Triple.seq (now_facing clock)
    exact fun _ => Triple.value fun _ hFacing => hFacing

/- A turn keeps the progress sound and leaves fewer turns. -/
def Turned
    (terms : Terms)
    (bound : Nat)
    (turn : Turn)
    (machine : Machine σ) : Prop :=
  Sound terms turn.progress machine ∧ weight turn.progress ≤ bound

/-
  After a probe the turn is over, and the loop came nearer its
  end.
-/
theorem afterProbe_triple :
    Triple (Sound terms progress) (afterProbe clock terms progress)
      (Turned (σ := σ) terms (weight progress)) Stopped := by
  rw [afterProbe]
  have hMore :
      Triple (Sound terms progress)
        (pure (Turn.more progress) : Tuning σ Turn)
        (Turned terms (weight progress)) Stopped :=
    Triple.value fun _ hSound => ⟨hSound, Nat.le_refl _⟩
  apply Triple.branch
  · rintro ⟨-, hQueued⟩
    apply Triple.seq (now_sound clock)
    intro time
    apply Triple.branch
    · intro _
      refine Triple.seq (R := fun after machine =>
        Turned terms (weight progress) (.more after) machine)
        (lift_triple ?_ (fun _ hSound => hSound.asked) ?_) ?_
      · rw [refineLate]
        exact honest_bind (honest_ofContract _)
          fun selected _ => honest_refine _
      · intro after machine hRun hSound
        rcases except_bind_eq_ok hRun with ⟨selected, -, hRefine⟩
        exact ⟨hSound.refined hRefine,
          (weight_refine hQueued hRefine).1⟩
      · exact fun after => Triple.value fun _ hTurned => hTurned
    · exact fun _ => hMore
  · exact fun _ => hMore

/- A measurement hands the batch to the evaluator once. -/
theorem measure_triple
    {machine : Machine σ}
    (hFacing : Facing terms batch current progress machine)
    (hFits : batch ≤ evaluator.capacity machine.evaluator)
    (parents timeout : Nat) :
    Triple (fun other => other = machine)
      (measure evaluator batch parents timeout)
      (fun probe after =>
        ∃ state,
          after =
            { machine with
              evaluator := state
              probes :=
                machine.probes ++
                  [⟨batch, evaluator.capacity machine.evaluator,
                    .ok probe⟩] })
      Stopped := by
  intro other hSame
  rw [hSame, measure]
  dsimp only
  cases hAnswer :
      (evaluator.measure batch parents timeout
        machine.evaluator).1 with
  | ok probe => exact ⟨_, rfl⟩
  | error error =>
      have hTaken := hFacing.queue.take hFacing.here
      refine ⟨⟨fun hStop => (nomatch hStop),
        fun _ hStop => (nomatch hStop)⟩, ?_, ?_⟩
      · rw [List.map_append]
        exact hTaken.once
      · intro other hMem
        rcases List.mem_append.mp hMem with hMem | hMem
        · exact hFacing.fitted other hMem
        · cases List.mem_singleton.mp hMem
          exact hFits

/- A batch is put aside, or probed once and recorded. -/
theorem probeBatch_triple
    (hWorld : 0 < terms.config.world)
    (remaining : Nat) :
    Triple (Facing terms batch current progress)
      (probeBatch evaluator clock terms batch current remaining
        progress)
      (Turned (σ := σ) terms (weight progress)) Stopped := by
  apply Triple.of_state
  intro machine hFacing
  refine Triple.seq (R := fun limit other =>
    limit = evaluator.capacity machine.evaluator ∧
      other = machine) ?_ ?_
  · rintro _ rfl
    exact ⟨rfl, rfl⟩
  intro limit
  apply Triple.of_state
  rintro _ ⟨rfl, rfl⟩
  apply Triple.branch
  · intro _
    apply Triple.value
    rintro _ rfl
    exact ⟨hFacing.skipped.same rfl rfl rfl rfl rfl rfl,
      Nat.le_refl _⟩
  intro hFits
  apply Triple.seq
    (measure_triple evaluator hFacing (Nat.not_lt.mp hFits)
      terms.config.parents remaining)
  intro probe
  apply Triple.of_state
  rintro _ ⟨state, rfl⟩
  refine Triple.seq (R := fun after machine =>
    Sound terms after machine ∧ weight after ≤ weight progress)
    (lift_triple (honest_recordProbe hWorld) ?_ ?_) ?_
  · rintro _ rfl
    refine ⟨?_, ?_⟩
    · rw [List.map_append]
      exact (hFacing.queue.take hFacing.here).once
    · intro other hMem
      rcases List.mem_append.mp hMem with hMem | hMem
      · exact hFacing.fitted other hMem
      · cases List.mem_singleton.mp hMem
        exact Nat.not_lt.mp hFits
  · rintro after _ hRun rfl
    exact hFacing.recorded (Nat.not_lt.mp hFits)
      (recorded_of_recordProbe hWorld hRun)
  intro after
  apply Triple.branch
  · exact fun _ => Triple.value fun _ hRecorded =>
      ⟨hRecorded.1.same rfl rfl rfl rfl rfl rfl, hRecorded.2⟩
  intro _
  apply Triple.branch
  · exact fun _ => Triple.value fun _ hRecorded => hRecorded
  intro _
  apply Triple.of_state
  rintro machine' ⟨hSound, hWeight⟩
  refine Triple.conseq (afterProbe_triple clock) ?_ ?_
    fun _ _ hStopped => hStopped
  · rintro _ rfl
    exact hSound
  · rintro turn other ⟨hTurned, hLess⟩
    exact ⟨hTurned, hLess.trans hWeight⟩

/- One turn probes a batch, refines the candidates or ends the loop. -/
theorem tuneStep_triple
    (hWorld : 0 < terms.config.world) :
    Triple (Facing terms batch current progress)
      (tuneStep evaluator clock terms batch current progress)
      (Turned (σ := σ) terms (weight progress)) Stopped := by
  apply Triple.seq (now_facing clock)
  intro time
  apply Triple.branch
  · exact fun _ => Triple.value fun _ hFacing =>
      ⟨hFacing.skipped, Nat.le_refl _⟩
  intro _
  apply Triple.seq (pastBoundary_triple clock)
  intro late
  apply Triple.branch
  · intro _
    refine Triple.seq (R := fun after machine =>
      Facing terms batch current after machine ∧
        weight after ≤ weight progress)
      (lift_triple honest_refineEarly
        (fun _ hFacing => hFacing.asked) ?_) ?_
    · intro after machine hRun hFacing
      rcases refineEarly_spec hRun with
        rfl | ⟨hQueued, winner, hRefine⟩
      · exact ⟨hFacing, Nat.le_refl _⟩
      · exact ⟨hFacing.refined hRefine,
          (weight_refine hQueued hRefine).1⟩
    · intro after
      apply Triple.branch
      · exact fun _ => Triple.value fun _ hFacing =>
          ⟨hFacing.1.skipped, hFacing.2⟩
      · intro _
        apply Triple.of_state
        rintro machine ⟨hFacing, hWeight⟩
        refine Triple.conseq
          (probeBatch_triple evaluator clock hWorld _) ?_ ?_
          fun _ _ hStopped => hStopped
        · rintro _ rfl
          exact hFacing
        · rintro turn other ⟨hTurned, hLess⟩
          exact ⟨hTurned, hLess.trans hWeight⟩
  · exact fun _ => probeBatch_triple evaluator clock hWorld _

/- With a turn for every batch that may come, the loop ends. -/
theorem tuneLoop_triple
    (hWorld : 0 < terms.config.world)
    {fuel : Nat}
    (hFuel : weight progress < fuel) :
    Triple (Sound terms progress)
      (tuneLoop evaluator clock terms fuel progress)
      (fun after (machine : Machine σ) =>
        Sound terms after machine)
      Stopped := by
  induction fuel generalizing progress with
  | zero => exact absurd hFuel (Nat.not_lt_zero _)
  | succ fuel ih =>
      rw [tuneLoop]
      cases hHere : progress.candidates[progress.index]? with
      | none => exact Triple.value fun _ hSound => hSound
      | some batch =>
          let next : Progress :=
            { progress with index := progress.index + 1 }
          rcases List.getElem?_eq_some_iff.mp hHere with ⟨hIn, -⟩
          have hNext : weight next < fuel := by
            rw [weight] at hFuel ⊢
            change progress.candidates.length -
              (progress.index + 1) + _ < fuel
            change _ + (if progress.refinementQueued then 0 else 6)
              < fuel + 1 at hFuel
            change _ + (if progress.refinementQueued then 0 else 6)
              < fuel
            omega
          have hStep :
              Triple (Sound terms progress)
                (tuneStep evaluator clock terms batch progress.index
                  next)
                (Turned (σ := σ) terms (weight next)) Stopped := by
            refine Triple.pre
              (tuneStep_triple evaluator clock hWorld) ?_
            intro machine hSound
            rcases hSound.evident with ⟨trials, hEvident⟩
            exact ⟨hSound.queue, hHere, rfl, hSound.fitted, trials,
              hEvident.same rfl rfl rfl rfl⟩
          apply Triple.seq hStep
          intro turn
          cases turn with
          | done after =>
              exact Triple.value fun _ hTurned => hTurned.1
          | more after =>
              apply Triple.of_state
              rintro machine ⟨hSound, hLess⟩
              refine Triple.pre (ih (hLess.trans_lt hNext)) ?_
              rintro _ rfl
              exact hSound

end Operations

----------------
-- The Selected Trial
----------------

/- Only one element of the list has anything to keep. -/
theorem filter_flatMap_of_key
    {α β κ : Type}
    {xs : List α}
    {x : α}
    {key : α → κ}
    {f : α → List β}
    {p : β → Bool}
    (hNodup : (xs.map key).Nodup)
    (hMem : x ∈ xs)
    (hOwn : ∀ y ∈ f x, p y = true)
    (hOther :
      ∀ other ∈ xs, key other ≠ key x → ∀ y ∈ f other, p y = false) :
    (xs.flatMap f).filter p = f x := by
  induction xs with
  | nil => cases hMem
  | cons first xs ih =>
      rw [List.map_cons, List.nodup_cons] at hNodup
      rw [List.flatMap_cons, List.filter_append]
      have hNone : ∀ rest : List α,
          (∀ other ∈ rest, ∀ y ∈ f other, p y = false) →
            (rest.flatMap f).filter p = [] := by
        intro rest hRest
        refine List.filter_eq_nil_iff.mpr fun y hY => ?_
        rcases List.mem_flatMap.mp hY with ⟨other, hIn, hOf⟩
        simp [hRest other hIn y hOf]
      rcases List.mem_cons.mp hMem with rfl | hMem
      · rw [hNone xs fun other hIn => hOther other
          (List.mem_cons_of_mem _ hIn) fun hSame =>
            hNodup.1 (hSame ▸ List.mem_map_of_mem hIn)]
        rw [List.filter_eq_self.mpr hOwn, List.append_nil]
      · have hFirst : key first ≠ key x := fun hSame =>
          hNodup.1 (hSame ▸ List.mem_map_of_mem hMem)
        rw [ih hNodup.2 hMem fun other hIn =>
          hOther other (List.mem_cons_of_mem _ hIn)]
        rw [List.filter_eq_nil_iff.mpr fun y hY => by
          simp [hOther first List.mem_cons_self hFirst y hY],
          List.nil_append]

section Selected

variable {terms : Terms}
variable {probes : List Probe}
variable {trials : List Trial}
variable {progress : Progress}

/- The samples of a probe name its batch. -/
theorem mem_probeSamples
    {batch : Nat}
    {probe : ProbeResult}
    {row : Measurement}
    (hMem : row ∈ probeSamples terms batch probe) :
    row.profile = numeral batch ∧
      row.throttled = !isVerified terms probe := by
  rw [probeSamples, samplesFrom, List.mem_map] at hMem
  rcases hMem with ⟨repetition, -, rfl⟩
  exact ⟨rfl, rfl⟩

/- The samples of a trial are those of a complete probe. -/
theorem mem_samples
    {trial : Trial}
    {row : Measurement}
    (hMem : row ∈ trial.samples terms) :
    isComplete terms trial.probe = true ∧
      row.profile = numeral trial.batch ∧
        row.throttled = !isVerified terms trial.probe := by
  rw [Trial.samples] at hMem
  split at hMem
  · rename_i hComplete
    exact ⟨hComplete, mem_probeSamples hMem⟩
  · cases hMem

/- What a profile was estimated from is one verified trial. -/
theorem Evident.winner
    (hEvident : Evident terms probes trials progress)
    (hOnce : (probes.map Probe.batch).Nodup)
    {profile : String}
    {value : Estimate}
    (hEstimate :
      Calibration.estimate profile progress.samples = .ok value) :
    ∃ trial ∈ trials,
      profile = numeral trial.batch ∧
        isComplete terms trial.probe = true ∧
          isVerified terms trial.probe = true ∧
            measurementsOf profile progress.samples =
              probeSamples terms trial.batch trial.probe := by
  rcases measured_of_estimate hEstimate with
    ⟨row, hRow, hProfile⟩
  have hValid :=
    validate_of_estimate hEstimate hRow hProfile
  have hThrottled := throttled_of_validate hValid
  rw [hEvident.samples] at hRow
  rcases List.mem_flatMap.mp hRow with ⟨trial, hTrial, hMem⟩
  rcases mem_samples hMem with ⟨hComplete, hName, hVerified⟩
  have hNamed : profile = numeral trial.batch :=
    hProfile.symm.trans hName
  rw [hThrottled] at hVerified
  refine ⟨trial, hTrial, hNamed, hComplete, ?_, ?_⟩
  · simpa using hVerified
  · have hOwn :
        probeSamples terms trial.batch trial.probe =
          trial.samples terms := by
      rw [Trial.samples, if_pos hComplete]
    rw [measurementsOf, hEvident.samples, hOwn]
    rw [hEvident.asked] at hOnce
    refine filter_flatMap_of_key hOnce hTrial ?_ ?_
    · intro other hOther
      rw [beq_iff_eq, hNamed]
      exact (mem_samples hOther).2.1
    · intro other hIn hNe sample hSample
      refine beq_false_of_ne fun hSame => hNe ?_
      refine numeral_injective ?_
      rw [← (mem_samples hSample).2.1, ← hNamed]
      exact hSame

end Selected

/- A selection and the trial it was made of. -/
structure Chosen
    (terms : Terms)
    (probes : List Probe)
    (selection : Selection)
    (trials : List Trial)
    (trial : Trial) : Prop where
  progress :
    ∃ progress, Evident terms probes trials progress ∧
      selection.records = progress.records ∧
        selection.gpuTelemetry = progress.telemetryRecords
  mem : trial ∈ trials
  once : (probes.map Probe.batch).Nodup
  fits : 0 < trial.batch ∧ trial.batch ≤ terms.config.cap
  complete : isComplete terms trial.probe = true
  verified : isVerified terms trial.probe = true
  phase : selection.phase = "inference_verified"
  batch : selection.parentBatch = trial.batch
  reserve :
    checkedAdd (peakOver trial.probe.rows) reserveMargin =
      some selection.reserveBytes
  estimate :
    Calibration.estimate (numeral trial.batch)
        (probeSamples terms trial.batch trial.probe) =
      .ok selection.estimate

section Selecting

variable {σ : Type}
variable {terms : Terms}
variable {progress : Progress}
variable {machine : Machine σ}

/- The trial of a winner, and where its reserve is kept. -/
theorem Sound.winner
    (hSound : Sound terms progress machine)
    {winner : Estimate}
    {rejected : Reasons}
    (hSelect :
      selectInference progress.samples terms.baseline =
        .ok (winner, rejected)) :
    ∃ trials trial reserve,
      Evident terms machine.probes trials progress ∧
        trial ∈ trials ∧
        (0 < trial.batch ∧ trial.batch ≤ terms.config.cap) ∧
        winner.profile = numeral trial.batch ∧
        isComplete terms trial.probe = true ∧
        isVerified terms trial.probe = true ∧
        checkedAdd (peakOver trial.probe.rows) reserveMargin =
          some reserve ∧
        progress.reserves.lookup winner.profile = some reserve ∧
        Calibration.estimate (numeral trial.batch)
            (probeSamples terms trial.batch trial.probe) =
          .ok winner := by
  rcases hSound.evident with ⟨trials, hEvident⟩
  have hEstimate := estimate_of_selectInference hSelect
  rcases hEvident.winner hSound.queue.once hEstimate with
    ⟨trial, hMem, hNamed, hComplete, hVerified, hOwn⟩
  rcases hEvident.reserves trial hMem hComplete with
    ⟨reserve, hSize, hKept⟩
  have hMeasured : trial.batch ∈ machine.probes.map Probe.batch := by
    rw [hEvident.asked]
    exact List.mem_map_of_mem hMem
  have hCandidate : trial.batch ∈ progress.candidates :=
    List.mem_of_mem_take (hSound.queue.measured.subset hMeasured)
  refine ⟨trials, trial, reserve, hEvident, hMem,
    hSound.queue.bounds _ hCandidate, hNamed, hComplete, hVerified,
    hSize, hNamed ▸ hKept, ?_⟩
  rw [← hEstimate, hNamed]
  refine estimate_congr ?_
  rw [hNamed] at hOwn
  rw [hOwn, measurementsOf]
  refine List.filter_eq_self.mpr fun row hRow => ?_
  rw [beq_iff_eq]
  exact (mem_probeSamples hRow).1

/- The selection is one of the recorded trials. -/
theorem chosen_of_selectionOf
    (hSound : Sound terms progress machine)
    (hCap : terms.config.cap ≤ 65536)
    {elapsed : Nat}
    {selection : Selection}
    (hRun : selectionOf terms progress elapsed = .ok selection) :
    ∃ trials trial,
      Chosen terms machine.probes selection trials trial := by
  rw [selectionOf] at hRun
  rcases except_bind_eq_ok hRun with
    ⟨⟨winner, rejected⟩, hSelect, hRun⟩
  rcases hSound.winner (ofContract_eq_ok.mp hSelect) with
    ⟨trials, trial, reserve, hEvident, hMem, hFits, hNamed,
      hComplete, hVerified, hSize, hKept, hEstimate⟩
  have hParsed : parseU64 winner.profile = some trial.batch := by
    rw [hNamed]
    exact Text.parseU64_numeral (by omega)
  dsimp only at hRun
  rw [hParsed, okOr_some, except_ok_bind, hKept, okOr_some,
    except_ok_bind] at hRun
  cases hRun
  exact ⟨trials, trial,
    { progress := ⟨progress, hEvident, rfl, rfl⟩
      mem := hMem
      once := hSound.queue.once
      fits := hFits
      complete := hComplete
      verified := hVerified
      phase := rfl
      batch := rfl
      reserve := hSize
      estimate := hEstimate }⟩

/- The selection raises no panic. -/
theorem honest_selectionOf
    (hSound : Sound terms progress machine)
    (elapsed : Nat) :
    Honest (selectionOf terms progress elapsed) := by
  rw [selectionOf]
  refine honest_bind (honest_ofContract _) ?_
  rintro ⟨winner, rejected⟩ hSelect
  rcases hSound.winner (ofContract_eq_ok.mp hSelect) with
    ⟨trials, trial, reserve, -, -, -, -, -, -, -, hKept, -⟩
  refine honest_bind (honest_okOr (by simp) _) fun batch _ => ?_
  dsimp only
  rw [hKept, okOr_some, except_ok_bind]
  intro text hError
  cases hError

end Selecting

----------------
-- Counted Again
----------------

open ProfileCache

/- A signature that names what the tuning was made for. -/
structure Names (config : TuneConfig) (signature : Json) : Prop where
  world :
    Json.index "world_size" signature = .integer config.world
  devices :
    Json.index "device_indices" signature =
      .array
        (config.deviceIndices.map fun index =>
          .integer index.toNat)
  uuids :
    Json.index "gpu_uuids" signature =
      .array (config.gpuUuids.map Json.string)

/- The fewest repetitions so far. -/
def fewest (repeats : Option Nat) (times : Nat) : Option Nat :=
  some ((repeats.map fun n => min n times).getD times)

theorem foldl_fewest
    (n : Nat)
    (values : List Nat) :
    values.foldl fewest (some n) =
      some (values.foldl min n) := by
  induction values generalizing n with
  | nil => rfl
  | cons value values ih => exact ih (min n value)

/- Rows of distinct devices are counted one by one. -/
theorem foldlM_countRow
    {rows : List Json}
    (hRows : ∀ row ∈ rows, checkRow config batch row = .ok ())
    (hDevices : (rows.map device).Nodup)
    {cohort : Cohort}
    (hNew : ∀ rank ∈ cohort.seen, some rank ∉ rows.map device) :
    ∃ seen,
      rows.foldlM (countRow config.world batch config.parents)
          cohort =
        .ok
          { seen
            peak := (rows.map rowPeak).foldl max cohort.peak
            repeats :=
              (rows.map fun row => (secondsOf row).length).foldl
                fewest cohort.repeats } := by
  induction rows generalizing cohort with
  | nil => exact ⟨cohort.seen, rfl⟩
  | cons row rows ih =>
      rw [List.map_cons, List.nodup_cons] at hDevices
      rcases valid_of_checkRow (hRows row List.mem_cons_self) with
        ⟨rank, hRank, hChecked, hValid⟩
      have hUnseen : rank ∉ cohort.seen := by
        intro hSeen
        refine hNew rank hSeen ?_
        rw [List.map_cons, hValid.device]
        exact List.mem_cons_self
      have hFirst :
          countRow config.world batch config.parents cohort row =
            .ok
              { seen := rank :: cohort.seen
                peak := max cohort.peak (rowPeak row)
                repeats :=
                  fewest cohort.repeats
                    (secondsOf row).length } := by
        rw [countRow, hValid.device, Option.filter_some,
          if_pos (decide_eq_true hRank), okOr_some,
          except_ok_bind, if_neg hUnseen, hChecked,
          except_ok_bind, hValid.peak, except_ok_bind,
          hValid.times, except_ok_bind]
        rfl
      rw [List.foldlM_cons, hFirst, except_ok_bind]
      refine ih
        (fun other hMem => hRows other (List.mem_cons_of_mem _ hMem))
        hDevices.2 ?_
      intro other hMem
      rcases List.mem_cons.mp hMem with rfl | hMem
      · rw [← hValid.device]
        exact hDevices.1
      · intro hLater
        exact hNew other hMem (List.mem_cons_of_mem _ hLater)

/- The highest peak and the fewest times of all rows. -/
theorem count_rows
    {rows : List Json}
    (hSome : rows ≠ [])
    (hRows : ∀ row ∈ rows, checkRow config batch row = .ok ())
    (hDevices : (rows.map device).Nodup) :
    ∃ seen,
      rows.foldlM (countRow config.world batch config.parents)
          Cohort.empty =
        .ok
          { seen
            peak := peakOver rows
            repeats := some (repeatsOf rows) } := by
  have hNone : ∀ rank ∈ Cohort.empty.seen,
      some rank ∉ rows.map device :=
    fun rank hMem => (nomatch hMem)
  rcases foldlM_countRow hRows hDevices hNone with ⟨seen, hFold⟩
  refine ⟨seen, hFold.trans ?_⟩
  cases rows with
  | nil => exact absurd rfl hSome
  | cons row rows =>
      have hPeak :
          ((row :: rows).map rowPeak).foldl max 0 =
            peakOver (row :: rows) := by
        rw [List.map_cons, List.foldl_cons, Nat.zero_max]
        rfl
      have hTimes :
          ((row :: rows).map fun row =>
              (secondsOf row).length).foldl fewest none =
            some (repeatsOf (row :: rows)) := by
        rw [List.map_cons, List.foldl_cons]
        exact foldl_fewest _ _
      rw [← hPeak, ← hTimes]
      rfl

/- The indices of the signature are the ones configured. -/
theorem readIndices_of_names
    {signature : Json}
    (hNames : Names config signature) :
    readIndices signature = .ok config.deviceIndices := by
  have hRead :
      readList (RankPlan.readUnsigned 32)
          (.array
            (config.deviceIndices.map fun index =>
              .integer index.toNat)) =
        .ok (config.deviceIndices.map UInt32.toNat) := by
    change
      (config.deviceIndices.map fun index =>
          Json.integer index.toNat).mapM
        (RankPlan.readUnsigned 32) = _
    induction config.deviceIndices with
    | nil => rfl
    | cons index rest ih =>
        rw [List.map_cons, List.mapM_cons,
          Telemetry.readUnsigned_toNat, except_ok_bind, ih]
        rfl
  rw [readIndices, hNames.devices, hRead, except_ok_bind,
    List.map_map]
  have hSame : (UInt32.ofNat ∘ UInt32.toNat) = id := by
    funext index
    exact UInt32.ofNat_toNat
  rw [hSame, List.map_id]
  rfl

/- The signature hides no field of the selection. -/
theorem index_evidence
    {key : String}
    (hKey : key ≠ "signature")
    (selection : Selection)
    (signature : Json) :
    Json.index key (evidence selection signature) =
      (selection.toFields.lookup key).getD .null := by
  rw [evidence, Json.index, Json.lookup_insert_of_ne hKey]

section Evidence

variable {terms : Terms}
variable {probes : List Probe}
variable {trials : List Trial}
variable {trial : Trial}
variable {selection : Selection}
variable {signature : Json}

/- The trial that was chosen has passed its checks. -/
theorem Chosen.checked
    (hChosen : Chosen terms probes selection trials trial) :
    Checked terms trial.batch trial.probe := by
  rcases hChosen.progress with ⟨progress, hEvident, -⟩
  exact hEvident.checked trial hChosen.mem

theorem Chosen.rows_length
    (hChosen : Chosen terms probes selection trials trial) :
    trial.probe.rows.length = terms.config.world := by
  have hComplete := hChosen.complete
  rw [isComplete, Bool.and_eq_true, decide_eq_true_eq] at hComplete
  exact hComplete.1

/- Its telemetry is read without an error. -/
theorem readTelemetry_of_chosen
    (hChosen : Chosen terms probes selection trials trial)
    (hFinite :
      trial.probe.telemetry.intervalSeconds.isFinite = true) :
    readTelemetry (evidence selection signature) trial.batch
        terms.config.gpuUuids terms.config.deviceIndices =
      .ok () := by
  rcases hChosen.progress with
    ⟨progress, hEvident, -, hTelemetry⟩
  have hKept := hEvident.telemetry trial hChosen.mem
  have hValue :
      Json.index (numeral trial.batch)
          (Json.index "gpu_telemetry"
            (evidence selection signature)) =
        trial.probe.telemetry.toValue := by
    rw [index_evidence (by decide)]
    change
      ((selection.gpuTelemetry.map fun entry =>
          (entry.1, entry.2.toValue)).lookup
            (numeral trial.batch)).getD .null = _
    rw [KeyedList.lookup_map_snd, hTelemetry, hKept]
    rfl
  have hVerified :
      trial.probe.telemetry.verified terms.config.gpuUuids
        terms.config.deviceIndices = true := hChosen.verified
  have hThrottled :
      Json.index "throttled" trial.probe.telemetry.toValue =
        .bool false := by
    rw [← Telemetry.Receipt.throttled_of_verified hVerified]
    rfl
  rw [readTelemetry, hValue]
  rw [Telemetry.Receipt.fromValue_toValue hFinite, except_ok_bind,
    hThrottled, hVerified, if_neg (by simp)]

/- Its rows are the ones the evidence shows. -/
theorem rowsOf_of_chosen
    (hChosen : Chosen terms probes selection trials trial) :
    rowsOf (evidence selection signature) trial.batch
        terms.config.world =
      .ok trial.probe.rows := by
  rcases hChosen.progress with ⟨progress, hEvident, hRecords, -⟩
  have hValue :
      Json.index "records" (evidence selection signature) =
        .array selection.records := by
    rw [index_evidence (by decide)]
    rfl
  have hOnce : (trials.map Trial.batch).Nodup :=
    hEvident.asked ▸ hChosen.once
  have hBatch : ∀ other ∈ trials, ∀ row ∈ other.probe.rows,
      (Json.index "batch" row).asU64 = some other.batch := by
    intro other hMem row hRow
    rcases valid_of_checkRow
      ((hEvident.checked other hMem).rows row hRow) with
      ⟨rank, -, -, hValid⟩
    exact hValid.batch
  have hRows :
      selection.records.filter
          (fun r =>
            decide
              ((Json.index "batch" r).asU64 =
                some trial.batch)) =
        trial.probe.rows := by
    rw [hRecords, hEvident.records]
    refine filter_flatMap_of_key hOnce hChosen.mem ?_ ?_
    · intro row hRow
      exact decide_eq_true (hBatch trial hChosen.mem row hRow)
    · intro other hMem hNe row hRow
      refine decide_eq_false fun hSame => hNe ?_
      rw [hBatch other hMem row hRow] at hSame
      exact Option.some.inj hSame
  rw [rowsOf, hValue, Json.asArray, okOr_some, except_ok_bind]
  dsimp only
  rw [hRows, if_neg (not_not.mpr hChosen.rows_length)]

/- The summary of its rows is the estimate selected. -/
theorem summary_of_chosen
    (hChosen : Chosen terms probes selection trials trial)
    (hParents : 0 < terms.config.parents)
    (hWorld : 0 < terms.config.world)
    (hGlobal :
      terms.config.parents * terms.config.world < 2 ^ 64) :
    summary (evidence selection signature) trial.batch
        terms.config.world trial.probe.rows =
      .ok selection.estimate := by
  have hRows := rows_ne_nil hWorld hChosen.complete
  rcases count_rows hRows hChosen.checked.rows
      hChosen.checked.devices with ⟨seen, hFold⟩
  have hValid := hChosen.checked.valid
  have hReserve :
      (Json.index "reserve_bytes"
          (evidence selection signature)).asU64 =
        some selection.reserveBytes := by
    rw [index_evidence (by decide)]
    rfl
  have hSamples :
      (List.range (repeatsOf trial.probe.rows)).mapM
          (measurementAt (numeral trial.batch)
            (terms.config.parents * terms.config.world) false
            trial.probe.rows) =
        .ok (probeSamples terms trial.batch trial.probe) := by
    rw [mapM_measurementAt hValid, probeSamples, hChosen.verified]
    rfl
  rw [summary]
  cases hHead : trial.probe.rows with
  | nil => exact absurd hHead hRows
  | cons first rest =>
      rcases hValid first (hHead ▸ List.mem_cons_self) with
        ⟨rank, hFirst⟩
      rw [List.head?_cons, ← hHead, okOr_some, except_ok_bind,
        hFirst.parents, Option.filter_some,
        if_pos (decide_eq_true hParents), okOr_some,
        except_ok_bind, checkedMul, if_pos hGlobal, okOr_some,
        except_ok_bind, hFold, except_ok_bind, hReserve]
      dsimp only
      rw [hChosen.reserve, if_neg (not_not.mpr rfl),
        Option.getD_some, hSamples, except_ok_bind]
      exact ofContract_eq_ok.mpr hChosen.estimate

/- The cache accepts the selection with its own estimate. -/
theorem normalize_of_chosen
    (hChosen : Chosen terms probes selection trials trial)
    (hParents : 0 < terms.config.parents)
    (hWorld :
      0 < terms.config.world ∧ terms.config.world ≤ 65535)
    (hGlobal :
      terms.config.parents * terms.config.world < 2 ^ 64)
    (hLength :
      terms.config.deviceIndices.length = terms.config.world)
    (hNames : Names terms.config signature)
    (hFinite :
      trial.probe.telemetry.intervalSeconds.isFinite = true) :
    normalize (evidence selection signature) signature
        terms.config.cap =
      .ok
        (.object
          (Json.insert "estimate" selection.estimate.toValue
            (Json.insert "signature" signature
              selection.toFields))) := by
  have hSignature :
      Json.index "signature" (evidence selection signature) =
        signature := by
    rw [evidence, Json.index, Json.lookup_insert_self]
    rfl
  have hPhase :
      Json.index "phase" (evidence selection signature) =
        .string "inference_verified" := by
    rw [index_evidence (by decide), ← hChosen.phase]
    rfl
  have hBatch :
      (Json.index "parent_batch"
          (evidence selection signature)).asU64 =
        some trial.batch := by
    rw [index_evidence (by decide), ← hChosen.batch]
    rfl
  have hUuids :
      readList readString (Json.index "gpu_uuids" signature) =
        .ok terms.config.gpuUuids := by
    rw [hNames.uuids]
    exact
      @Telemetry.readList_map _ readString Json.string
        (fun _ => rfl) terms.config.gpuUuids
  have hSize :
      (Json.index "world_size" signature).asU64 =
        some terms.config.world := by
    rw [hNames.world]
    rfl
  rw [ProfileCache.normalize, hSignature, hPhase,
    if_neg (by simp), hBatch,
    Option.filter_some, if_pos (decide_eq_true hChosen.fits),
    okOr_some, except_ok_bind, hSize, Option.filter_some,
    if_pos (decide_eq_true hWorld), okOr_some, except_ok_bind,
    readIndices_of_names hNames, except_ok_bind, hUuids,
    except_ok_bind, if_neg (not_not.mpr hLength),
    readTelemetry_of_chosen hChosen hFinite, except_ok_bind,
    rowsOf_of_chosen hChosen, except_ok_bind,
    summary_of_chosen hChosen hParents hWorld.1 hGlobal,
    except_ok_bind]
  rfl

end Evidence

----------------
-- Tuning
----------------

/- The first candidates are distinct and within the cap. -/
theorem firstCandidates_spec
    (hCap : 0 < config.cap)
    (hRun : firstCandidates config = .ok candidates) :
    candidates.Nodup ∧
      (∀ b ∈ candidates, 0 < b ∧ b ≤ config.cap) ∧
        ∃ baseline, candidates.head? = some baseline := by
  rw [firstCandidates] at hRun
  split at hRun
  · rw [← Except.ok.inj hRun]
    have hSmall : ∀ b ∈ [16, 8, 4, 2, 1].filter
        (fun v => decide (v < config.cap)), 0 < b ∧ b < config.cap := by
      intro b hMem
      rcases List.mem_filter.mp hMem with ⟨hIn, hLess⟩
      have hPositive : ∀ v ∈ [16, 8, 4, 2, 1], 0 < v := by decide
      exact ⟨hPositive b hIn, of_decide_eq_true hLess⟩
    refine ⟨?_, ?_, config.cap, rfl⟩
    · refine List.nodup_cons.mpr ⟨?_, ?_⟩
      · intro hMem
        exact absurd (hSmall _ hMem).2 (Nat.lt_irrefl _)
      · exact List.Nodup.filter _ (by decide)
    · intro b hMem
      rcases List.mem_cons.mp hMem with rfl | hMem
      · exact ⟨hCap, Nat.le_refl _⟩
      · exact ⟨(hSmall b hMem).1, (hSmall b hMem).2.le⟩
  · rcases coarseBatches_spec (ofContract_eq_ok.mp hRun) with
      ⟨hNodup, hBounds, hHead⟩
    exact ⟨hNodup, hBounds, _, hHead⟩

theorem honest_firstCandidates (config : TuneConfig) :
    Honest (firstCandidates config) := by
  rw [firstCandidates]
  split
  · intro text hError
    cases hError
  · exact honest_ofContract _

/- A shared batch is one of those that fit, and comes once. -/
theorem queue_withShared
    (hNodup : candidates.Nodup)
    (hBounds : ∀ b ∈ candidates, 0 < b ∧ b ≤ config.cap) :
    Queue config.cap [] (withShared (sharedOf config) candidates)
      0 := by
  cases hShared : sharedOf config with
  | none => exact ⟨hNodup, hBounds, List.Sublist.refl _⟩
  | some batch =>
      have hFits : 0 < batch ∧ batch ≤ config.cap := by
        rw [sharedOf, Option.filter_eq_some_iff] at hShared
        have hChecks := hShared.2
        simp only [Bool.and_eq_true, decide_eq_true_eq] at hChecks
        exact ⟨hChecks.1.2, hChecks.2⟩
      refine ⟨?_, ?_, List.Sublist.refl _⟩
      · refine List.nodup_cons.mpr ⟨?_, hNodup.filter _⟩
        intro hMem
        have hNot := (List.mem_filter.mp hMem).2
        simp at hNot
      · intro b hMem
        rcases List.mem_cons.mp hMem with rfl | hMem
        · exact hFits
        · exact hBounds b (List.mem_filter.mp hMem).1

/- Before the first turn nothing has been measured. -/
theorem sound_start
    {σ : Type}
    {terms : Terms}
    {machine : Machine σ}
    (hNone : machine.probes = [])
    (hQueue : Queue terms.config.cap [] candidates 0) :
    Sound terms (Progress.start terms.config candidates) machine where
  queue := by
    rw [hNone]
    exact hQueue
  fitted := by
    rw [hNone]
    exact fun probe hMem => (nomatch hMem)
  evident :=
    ⟨[],
      { asked := by
          rw [hNone]
          rfl
        logged := fun trial hMem => (nomatch hMem)
        checked := fun trial hMem => (nomatch hMem)
        records := rfl
        samples := rfl
        telemetry := fun trial hMem => (nomatch hMem)
        reserves := fun trial hMem => (nomatch hMem) }⟩

theorem weight_start
    (config : TuneConfig)
    (candidates : List Nat) :
    weight (Progress.start config candidates) <
      turns candidates := by
  rw [weight, turns]
  change candidates.length - 0 + _ < _
  split
  · omega
  · omega

/- What is said of the batch that a selection names: every rank
measured it, and the cache takes the selection as it is. -/
structure Measured
    (config : TuneConfig)
    (selection : Selection)
    (probe : Probe)
    (result : ProbeResult) : Prop where
  batch : probe.batch = selection.parentBatch
  answer : probe.result = .ok result
  failures : result.failures = []
  ranks :
    List.Perm (result.rows.map device)
      ((List.range config.world).map some)
  receipts :
    ∀ row ∈ result.rows, ∃ rank,
      device row = some rank ∧
        validateRow row rank probe.batch config.parents = .ok ()
  verified :
    result.telemetry.verified config.gpuUuids
      config.deviceIndices = true
  reserve :
    ∃ peak, (result.rows.map rowPeak).max? = some peak ∧
      selection.reserveBytes = peak + reserveMargin
  accepted :
    result.telemetry.intervalSeconds.isFinite = true →
      ∀ signature, Names config signature →
        normalize (evidence selection signature) signature
            config.cap =
          .ok
            (.object
              (Json.insert "estimate" selection.estimate.toValue
                (Json.insert "signature" signature
                  selection.toFields)))

/- What a selection promises about its probe. -/
def Tuned
    {σ : Type}
    (config : TuneConfig)
    (selection : Selection)
    (machine : Machine σ) : Prop :=
  Asked machine ∧
    ∃ probe ∈ machine.probes, ∃ result,
      Measured config selection probe result

/- The rows of a probe are one for each device. -/
theorem perm_devices
    {rows : List Json}
    (hRows : ∀ row ∈ rows, checkRow config batch row = .ok ())
    (hDevices : (rows.map device).Nodup)
    (hLength : rows.length = config.world) :
    List.Perm (rows.map device)
      ((List.range config.world).map some) := by
  refine (List.subperm_of_subset hDevices ?_).perm_of_length_le ?_
  · intro entry hMem
    rcases List.mem_map.mp hMem with ⟨row, hRow, rfl⟩
    rcases valid_of_checkRow (hRows row hRow) with
      ⟨rank, hRank, -, hValid⟩
    rw [hValid.device]
    exact List.mem_map_of_mem (List.mem_range.mpr hRank)
  · rw [List.length_map, List.length_map, List.length_range,
      hLength]

/- The selection that was chosen is tuned. -/
theorem tuned_of_chosen
    {σ : Type}
    {terms : Terms}
    {machine : Machine σ}
    {selection : Selection}
    {trials : List Trial}
    {trial : Trial}
    {limit timeout : Nat}
    (hFormed : ¬malformed terms.config limit timeout)
    (hAsked : Asked machine)
    (hChosen :
      Chosen terms machine.probes selection trials trial) :
    Tuned terms.config selection machine := by
  simp only [malformed, not_or, not_not] at hFormed
  rcases hFormed with
    ⟨hCap, -, -, hParents, hSmall, hWorld, hRanks, hLength, -⟩
  rcases hChosen.progress with ⟨progress, hEvident, -⟩
  rcases hEvident.logged trial hChosen.mem with
    ⟨probe, hProbe, hBatch, hResult⟩
  have hChecked := hChosen.checked
  have hGlobal :
      terms.config.parents * terms.config.world < 2 ^ 64 := by
    have hProduct :
        terms.config.parents * terms.config.world ≤
          (2 ^ 32 - 1) * 65535 :=
      Nat.mul_le_mul (by omega) (by omega)
    exact hProduct.trans_lt (by decide)
  refine ⟨hAsked, probe, hProbe, trial.probe, ?_⟩
  constructor
  case batch => exact hBatch.trans hChosen.batch.symm
  case answer => exact hResult
  case failures =>
    have hComplete := hChosen.complete
    rw [isComplete, Bool.and_eq_true] at hComplete
    exact List.isEmpty_iff.mp hComplete.2
  case ranks =>
    exact perm_devices hChecked.rows hChecked.devices
      hChosen.rows_length
  case receipts =>
    intro row hRow
    rcases valid_of_checkRow (hChecked.rows row hRow) with
      ⟨rank, -, hValidated, hValid⟩
    exact ⟨rank, hValid.device, hBatch ▸ hValidated⟩
  case verified => exact hChosen.verified
  case reserve =>
    refine ⟨peakOver trial.probe.rows,
      max?_peakOver (rows_ne_nil (by omega) hChosen.complete), ?_⟩
    have hReserve := hChosen.reserve
    rw [checkedAdd] at hReserve
    split at hReserve
    · exact (Option.some.inj hReserve).symm
    · cases hReserve
  case accepted =>
    intro hFinite signature hNames
    exact normalize_of_chosen hChosen (by omega)
      ⟨by omega, by omega⟩ hGlobal hLength hNames hFinite

section Tuning

variable {σ : Type}
variable (evaluator : Evaluator σ)
variable (clock : Clock)

/- A machine that was asked for nothing yet. -/
def Fresh (machine : Machine σ) : Prop :=
  machine.probes = []

theorem Fresh.asked
    {machine : Machine σ}
    (hFresh : Fresh machine) : Asked machine := by
  rw [Fresh] at hFresh
  exact ⟨by rw [hFresh]; exact List.nodup_nil, by
    rw [hFresh]
    exact fun probe hMem => (nomatch hMem)⟩

theorem stop_fresh
    {Q : Selection → Machine σ → Prop}
    (text : String) :
    Triple Fresh
      (throw (.error (.message text)) : Tuning σ Selection) Q
      Stopped :=
  Triple.stop fun _ hFresh =>
    ⟨⟨fun hStop => (nomatch hStop), fun _ hStop => (nomatch hStop)⟩,
      hFresh.asked⟩

/- Tuning ends with a tuned selection or an error. -/
theorem tune_triple
    (config : TuneConfig)
    (timeout : Nat) :
    Triple Fresh (tune evaluator clock config timeout)
      (fun selection (machine : Machine σ) =>
        Tuned config selection machine)
      Stopped := by
  refine Triple.seq (R := fun _ => Fresh) (fun _ hFresh => hFresh) ?_
  intro limit
  apply Triple.branch
  · exact fun _ => stop_fresh _
  intro hFormed
  refine Triple.seq (R := fun _ => Fresh) (fun _ hFresh => hFresh) ?_
  intro started
  apply Triple.branch
  · exact fun _ => stop_fresh _
  intro _
  have hBounds := hFormed
  simp only [malformed, not_or, not_not] at hBounds
  rcases hBounds with ⟨hCap, -, hLarge, -, -, hWorld, -⟩
  refine Triple.seq (R := fun candidates machine =>
    firstCandidates config = .ok candidates ∧ Fresh machine)
    (lift_triple (honest_firstCandidates config)
      (fun _ hFresh => hFresh.asked)
      fun _ _ hRun hFresh => ⟨hRun, hFresh⟩) ?_
  intro candidates
  apply Triple.of_state
  rintro machine ⟨hCandidates, hFresh⟩
  rcases firstCandidates_spec (by omega) hCandidates with
    ⟨hNodup, hFits, baseline, hHead⟩
  rw [hHead, okOr_some]
  refine Triple.seq (R := fun _ => Fresh)
    (lift_triple (fun _ hError => (nomatch hError))
      (fun _ hSame => hSame ▸ hFresh.asked)
      fun _ _ _ hSame => hSame ▸ hFresh) ?_
  intro baseline
  have hQueue := queue_withShared hNodup hFits
  dsimp only
  refine Triple.seq
    (Triple.pre
      (tuneLoop_triple evaluator clock (Nat.pos_of_ne_zero hWorld)
        (weight_start config _))
      fun _ hNone => sound_start hNone hQueue) ?_
  intro progress
  refine Triple.seq (now_sound clock) ?_
  intro time
  apply Triple.of_state
  intro after hSound
  refine lift_triple (honest_selectionOf hSound _)
    (fun _ hSame => hSame ▸ hSound.asked) ?_
  rintro selection _ hRun rfl
  rcases chosen_of_selectionOf hSound (Nat.not_lt.mp hLarge) hRun
    with ⟨trials, trial, hChosen⟩
  exact tuned_of_chosen hFormed hSound.asked hChosen

/- A tuning ends without a panic; whatever it selects, every
rank measured, and the cache takes it with the same estimate. -/
theorem tune_evidence
    (config : TuneConfig)
    (timeout readings : Nat)
    (state : σ) :
    match
      tune evaluator clock config timeout
        { evaluator := state
          readings
          probes := [] }
    with
    | .ok selection machine => Tuned config selection machine
    | .error stop machine => Stopped stop machine := by
  have hRun :=
    tune_triple evaluator clock config timeout
      ⟨state, readings, []⟩ rfl
  cases hResult :
      tune evaluator clock config timeout ⟨state, readings, []⟩ with
  | ok selection machine =>
      rw [hResult] at hRun
      exact hRun
  | error stop machine =>
      rw [hResult] at hRun
      exact hRun

end Tuning

----------------
-- An Interval That Is No Number
----------------

/- A row of one device. -/
def loneRow : Json :=
  .object
    [("batch", .integer 1), ("parents", .integer 1),
      ("device", .integer 0), ("correctness_passed", .bool true),
      ("numeric_error", .integer 0),
      ("seconds", .array (List.replicate 5 (.integer 1))),
      ("torch_reserved_peak_bytes", .integer 0)]

/- An evaluator that always gives that row. -/
def loneEvaluator (interval : Double) : Evaluator Unit where
  measure := fun _ _ _ _ =>
    (.ok
      { rows := [loneRow]
        failures := []
        telemetry := Telemetry.loneReceipt interval }, ())
  capacity := fun _ => 1

/- The tuning of one device. -/
def loneConfig : TuneConfig where
  cap := 1
  parents := 1
  world := 1
  capacityBootstrap := true
  sharedBatch := none
  deviceIndices := [0]
  gpuUuids := ["GPU-a"]

/- A clock with a reading each nanosecond. -/
def loneClock : Clock where
  reading := id
  last := 100 * second

/- The signature of the device. -/
def loneSignature : Json :=
  .object
    [("world_size", .integer 1),
      ("device_indices", .array [.integer 0]),
      ("gpu_uuids", .array [.string "GPU-a"])]

/- Is what is selected taken by the cache? -/
def accepted
    (evaluator : Evaluator Unit)
    (clock : Clock)
    (config : TuneConfig)
    (timeout : Nat)
    (signature : Json) : Option Bool :=
  match tune evaluator clock config timeout ⟨(), 0, []⟩ with
  | .ok selection _ =>
      some
        (normalize (evidence selection signature) signature
          config.cap).isOk
  | .error _ _ => none

theorem exists_of_rejected
    {evaluator : Evaluator Unit}
    {clock : Clock}
    {timeout : Nat}
    {signature : Json}
    (hRejected :
      accepted evaluator clock config timeout signature =
        some false) :
    ∃ selection machine,
      tune evaluator clock config timeout ⟨(), 0, []⟩ =
          .ok selection machine ∧
        ∀ normalized,
          normalize (evidence selection signature) signature
            config.cap ≠ .ok normalized := by
  rw [accepted] at hRejected
  cases hRun :
      tune evaluator clock config timeout ⟨(), 0, []⟩ with
  | error stop machine =>
      rw [hRun] at hRejected
      cases hRejected
  | ok selection machine =>
      rw [hRun] at hRejected
      refine ⟨selection, machine, rfl, ?_⟩
      intro normalized hOk
      dsimp only at hRejected
      rw [hOk] at hRejected
      cases hRejected

/- With every interval: the cache takes what is selected. -/
def AlwaysAccepted : Prop :=
  ∀ (evaluator : Evaluator Unit) (clock : Clock)
      (config : TuneConfig) (timeout : Nat)
      (selection : Selection) (machine : Machine Unit),
    Monotone clock.reading →
    tune evaluator clock config timeout ⟨(), 0, []⟩ =
        .ok selection machine →
      ∀ signature, Names config signature →
        ∃ normalized,
          normalize (evidence selection signature) signature
            config.cap = .ok normalized

theorem not_always_of_rejected
    {evaluator : Evaluator Unit}
    {clock : Clock}
    {timeout : Nat}
    {signature : Json}
    (hRejected :
      accepted evaluator clock config timeout signature =
        some false)
    (hClock : Monotone clock.reading)
    (hNames : Names config signature) :
    ¬AlwaysAccepted := by
  intro hAll
  rcases exists_of_rejected hRejected with
    ⟨selection, machine, hRun, hNone⟩
  rcases hAll evaluator clock config timeout selection machine
    hClock hRun signature hNames with ⟨normalized, hOk⟩
  exact hNone normalized hOk

theorem accepted_nan :
    accepted (loneEvaluator .nan) loneClock loneConfig second
      loneSignature = some false := by
  decide +kernel

example :
    accepted (loneEvaluator (Double.ofNat 5)) loneClock loneConfig
      second loneSignature = some true := by
  decide +kernel

theorem names_lone : Names loneConfig loneSignature :=
  ⟨rfl, rfl, rfl⟩

/- An interval without a value is written as null. -/
theorem nan_interval_rejected : ¬AlwaysAccepted :=
  not_always_of_rejected accepted_nan monotone_id names_lone

end InferenceTuning

end Calibration

end BeamSearch
