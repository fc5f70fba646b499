import Mathlib.Order.Bounds.Basic
import BeamSearch.Calibration.Plans
import BeamSearch.Lib.Hoare

/-
  The search for the largest admitted beam.

  For each frozen profile a bisection asks the native admission
  for multiples of the alignment. It looks at the clock before
  every question; a deadline ends all searches.

  The admission answers by beam and profile. The clock is a
  sequence of readings.

  Main declarations:
    * `CapacityResult`
    * `bisect`
    * `findCapacity`
    * `findCapacity_triple`
-/

namespace BeamSearch

open Hoare

namespace Calibration

----------------
-- The World Of A Search
----------------

/- How often the clock was read and the admission was asked. -/
structure Machine where
  readings : Nat
  asked : Nat
deriving DecidableEq, Repr

/- A search that reads a clock and asks for admission. -/
abbrev Timed (α : Type) : Type :=
  EStateM RuntimeError Machine α

/- What the planner answers for a beam and a profile. -/
abbrev Admission : Type :=
  Nat → Environment → Except RuntimeError (List Json)

/- A reading of the clock. -/
def now (clock : Nat → Nat) : Timed Nat :=
  fun machine =>
    .ok (clock machine.readings)
      { machine with readings := machine.readings + 1 }

/- A question to the planner; its answer may be an error. -/
def ask
    (admission : Admission)
    (beam : Nat)
    (profile : Environment) :
    Timed (Except RuntimeError (List Json)) :=
  fun machine =>
    .ok (admission beam profile)
      { machine with asked := machine.asked + 1 }

/- Turn a capacity rejection into a value. -/
def catchRejection
    {α : Type}
    (program : Timed α) : Timed (Except String α) :=
  fun machine =>
    match program machine with
    | .ok a after => .ok (.ok a) after
    | .error (.capacityRejected reason) after =>
        .ok (.error reason) after
    | .error error after => .error error after

----------------
-- Bisection
----------------

/- What a capacity search returns. -/
structure CapacityResult where
  requestedBeam : Nat
  effectiveBeam : Nat
  profile : Environment
  plans : List Json
  probes : Nat
  upperRejectedBeam : Option Nat
  searchComplete : Bool
  fullStepVerified : Bool

/- The state of the bisection. -/
structure Bisection where
  low : Nat
  high : Nat
  accepted : Option (List Json)
  rejected : Option Nat
  probes : Nat
  complete : Bool

section Search

variable (clock : Nat → Nat)
variable (deadline : Nat)
variable (admission : Admission)

/- Halve the interval until it closes or the deadline passes. -/
def bisect
    (alignment : Nat)
    (profile : Environment) :
    Nat → Bisection → Timed Bisection
  | 0, search => pure search
  | fuel + 1, search =>
      if search.high - search.low > 1 then do
        let time ← now clock
        if time ≥ deadline then
          pure { search with complete := false }
        else
          let units := (search.low + search.high) / 2
          let beam := units * alignment
          let probes := search.probes + 1
          if probes ≥ 2 ^ 64 then
            throw (.message "capacity probe counter overflow")
          else do
            let answer ← ask admission beam profile
            match answer with
            | .ok plans =>
                match validate plans beam with
                | .ok _ =>
                    bisect alignment profile fuel
                      { search with
                        low := units
                        accepted := some plans
                        probes := probes }
                | .error error => throw error
            | .error (.capacityRejected _) =>
                bisect alignment profile fuel
                  { search with
                    high := units
                    rejected := some beam
                    probes := probes }
            | .error error => throw error
      else
        pure search

/- The state of the walk over the profiles. -/
structure Found where
  best : Option CapacityResult
  probes : Nat
  complete : Bool

/- Keep a profile's outcome if its beam is strictly larger. -/
def keepBest
    (alignment : Nat)
    (profile : Environment)
    (search : Bisection)
    (best : Option CapacityResult) : Option CapacityResult :=
  let beam := search.low * alignment
  match search.accepted with
  | none => best
  | some plans =>
      if best.all fun r => decide (beam > r.requestedBeam) then
        some
          { requestedBeam := beam
            effectiveBeam := beam
            profile := profile
            plans := plans
            probes := search.probes
            upperRejectedBeam := search.rejected
            searchComplete := search.complete
            fullStepVerified := false }
      else
        best

/-
  The profiles in turn, each searched between what was found
  and the ceiling.
-/
def searchProfiles
    (alignment maximum : Nat) :
    List Environment → Found → Timed Found
  | [], found => pure found
  | profile :: rest, found => do
      let search ←
        bisect clock deadline admission alignment profile
          (maximum + 1)
          { low := 0
            high := maximum + 1
            accepted := none
            rejected := none
            probes := found.probes
            complete := found.complete }
      let found : Found :=
        { best := keepBest alignment profile search found.best
          probes := search.probes
          complete := search.complete }
      if search.complete then
        searchProfiles alignment maximum rest found
      else
        pure found

/- The search, after its arguments were checked. -/
def findCapacity
    (profiles : List Environment)
    (upperBound alignment : Nat) : Timed CapacityResult :=
  if alignment = 0 ∨ upperBound < alignment ∨
      profiles.isEmpty then
    throw
      (.message
        "invalid capacity search ceiling/alignment/profiles")
  else do
    let found ←
      searchProfiles clock deadline admission alignment
        (upperBound / alignment) profiles
        { best := none
          probes := 0
          complete := true }
    match found.best with
    | none =>
        throw
          (.capacityRejected
            "no frontier admitted within search budget")
    | some best =>
        pure
          { best with
            probes := found.probes
            searchComplete := found.complete }

end Search

----------------
-- Monotone Admissions
----------------

/- The admission accepts exactly the beams up to a profile's limit. -/
structure MonotoneAdmission
    (admission : Admission)
    (limit : Environment → Nat) : Prop where
  accepts :
    ∀ profile beam, 0 < beam → beam ≤ limit profile →
      ∃ plans,
        admission beam profile = .ok plans ∧
          validate plans beam = .ok ()
  refuses :
    ∀ profile beam, limit profile < beam →
      ∃ reason,
        admission beam profile =
          .error (.capacityRejected reason)

/- The planner has plans for the beam. -/
def Admitted
    (admission : Admission)
    (beam : Nat)
    (profile : Environment) : Prop :=
  ∃ plans, admission beam profile = .ok plans

/- The admitted multiples of the alignment up to the bound. -/
def admittedBeams
    (admission : Admission)
    (upperBound alignment : Nat)
    (profile : Environment) : Set Nat :=
  {beam |
    0 < beam ∧ alignment ∣ beam ∧ beam ≤ upperBound ∧
      Admitted admission beam profile}

/- A reading since the given one was not before the deadline. -/
def Late
    (clock : Nat → Nat)
    (deadline since : Nat)
    (machine : Machine) : Prop :=
  ∃ i, since ≤ i ∧ i < machine.readings ∧ deadline ≤ clock i

section Correctness

variable {clock : Nat → Nat}
variable {deadline since : Nat}
variable {admission : Admission}
variable {limit : Environment → Nat}

theorem MonotoneAdmission.le_limit
    (hMonotone : MonotoneAdmission admission limit)
    {profile : Environment}
    {beam : Nat}
    (hAdmitted : Admitted admission beam profile) :
    beam ≤ limit profile := by
  by_contra hOver
  rcases hMonotone.refuses profile beam (Nat.not_le.mp hOver)
    with ⟨reason, hRefused⟩
  rcases hAdmitted with ⟨plans, hPlans⟩
  rw [hPlans] at hRefused
  cases hRefused

----------------
-- The Bisection
----------------

/- The limit lies in the interval of a bisection. -/
structure Narrowed
    (admission : Admission)
    (limit : Environment → Nat)
    (alignment maximum : Nat)
    (profile : Environment)
    (search : Bisection) : Prop where
  low_lt : search.low < search.high
  high_le : search.high ≤ maximum + 1
  low_admitted : search.low * alignment ≤ limit profile
  high_refused :
    search.high ≤ maximum →
      limit profile < search.high * alignment
  accepted :
    (search.accepted = none ∧ search.low = 0) ∨
      ∃ plans,
        search.accepted = some plans ∧ 0 < search.low ∧
          admission (search.low * alignment) profile =
            .ok plans

namespace Narrowed

variable {alignment maximum : Nat}
variable {profile : Environment}
variable {search : Bisection}

theorem start
    (probes : Nat)
    (complete : Bool) :
    Narrowed admission limit alignment maximum profile
      { low := 0
        high := maximum + 1
        accepted := none
        rejected := none
        probes := probes
        complete := complete } :=
  { low_lt := Nat.succ_pos _
    high_le := le_rfl
    low_admitted := by
      rw [Nat.zero_mul]
      exact Nat.zero_le _
    high_refused := fun hLe =>
      absurd hLe (Nat.not_succ_le_self _)
    accepted := .inl ⟨rfl, rfl⟩ }

theorem accept
    (hNarrowed :
      Narrowed admission limit alignment maximum profile search)
    {units probes : Nat}
    {plans : List Json}
    (hLow : search.low < units)
    (hHigh : units < search.high)
    (hFits : units * alignment ≤ limit profile)
    (hAccepted :
      admission (units * alignment) profile = .ok plans) :
    Narrowed admission limit alignment maximum profile
      { search with
        low := units
        accepted := some plans
        probes := probes } :=
  { low_lt := hHigh
    high_le := hNarrowed.high_le
    low_admitted := hFits
    high_refused := hNarrowed.high_refused
    accepted :=
      .inr ⟨plans, rfl, (Nat.zero_le _).trans_lt hLow, hAccepted⟩ }

theorem refuse
    (hNarrowed :
      Narrowed admission limit alignment maximum profile search)
    {units probes : Nat}
    {rejected : Option Nat}
    (hHigh : units < search.high)
    (hLow : search.low < units)
    (hOver : limit profile < units * alignment) :
    Narrowed admission limit alignment maximum profile
      { search with
        high := units
        rejected := rejected
        probes := probes } :=
  { low_lt := hLow
    high_le := hHigh.le.trans hNarrowed.high_le
    low_admitted := hNarrowed.low_admitted
    high_refused := fun _ => hOver
    accepted := hNarrowed.accepted }

/- A closed interval leaves one answer. -/
theorem le_low
    (hNarrowed :
      Narrowed admission limit alignment maximum profile search)
    (hClosed : search.high ≤ search.low + 1)
    {units : Nat}
    (hUnits : units ≤ maximum)
    (hLimit : units * alignment ≤ limit profile) :
    units ≤ search.low := by
  by_contra hOver
  have hHigh : search.high ≤ units := by omega
  have hRefused :=
    hNarrowed.high_refused (hHigh.trans hUnits)
  have hScaled :
      search.high * alignment ≤ units * alignment :=
    Nat.mul_le_mul_right _ hHigh
  omega

end Narrowed

theorem ask_triple
    {P : Machine → Prop}
    {R : Machine → Prop}
    {beam : Nat}
    {profile : Environment}
    {E : RuntimeError → Machine → Prop}
    (hKept :
      ∀ machine, P machine →
        R { machine with asked := machine.asked + 1 }) :
    Triple P (ask admission beam profile)
      (fun answer machine =>
        answer = admission beam profile ∧ R machine)
      E :=
  fun machine hP => ⟨rfl, hKept machine hP⟩

theorem bisect_triple
    (hMonotone : MonotoneAdmission admission limit)
    {alignment maximum : Nat}
    (hAlignment : 0 < alignment)
    {profile : Environment}
    {fuel : Nat}
    {search : Bisection}
    (hNarrowed :
      Narrowed admission limit alignment maximum profile search)
    (hComplete : search.complete = true)
    (hFuel : search.high - search.low ≤ fuel) :
    Triple (fun machine => since ≤ machine.readings)
      (bisect clock deadline admission alignment profile fuel
        search)
      (fun result machine =>
        since ≤ machine.readings ∧
          Narrowed admission limit alignment maximum profile
            result ∧
          (result.complete = true →
            result.high ≤ result.low + 1) ∧
          (result.complete = false →
            Late clock deadline since machine))
      (fun error _ =>
        error = .message "capacity probe counter overflow") := by
  induction fuel generalizing search with
  | zero =>
      have hLt := hNarrowed.low_lt
      omega
  | succ fuel ih =>
      unfold bisect
      apply Triple.branch
      · intro hOpen
        apply Triple.of_state
        intro machine hSince
        apply Triple.seq (R := fun time after =>
          since ≤ after.readings ∧
            (deadline ≤ time →
              Late clock deadline since after))
        · intro machine' hSame
          subst hSame
          refine ⟨hSince.trans (Nat.le_succ _), ?_⟩
          intro hLate
          exact ⟨machine'.readings, hSince, Nat.lt_succ_self _,
            hLate⟩
        intro time
        apply Triple.branch
        · intro hLate
          apply Triple.value
          rintro after ⟨hAfter, hLater⟩
          exact ⟨hAfter, { hNarrowed with },
            fun hFalse => absurd hFalse Bool.false_ne_true,
            fun _ => hLater hLate⟩
        · intro _
          have hUnits :
              search.low < (search.low + search.high) / 2 ∧
                (search.low + search.high) / 2 < search.high := by
            omega
          apply Triple.branch
          · intro _
            exact Triple.stop fun _ _ => rfl
          · intro _
            apply Triple.seq (ask_triple
              (R := fun after => since ≤ after.readings)
              fun after hAfter => hAfter.1)
            intro answer
            apply Triple.of_state
            rintro after ⟨hAnswer, hAfter⟩
            subst hAnswer
            refine Triple.pre
              (P := fun machine => since ≤ machine.readings) ?_
              fun _ hSame => hSame ▸ hAfter
            rcases Nat.lt_or_ge (limit profile)
                ((search.low + search.high) / 2 * alignment)
              with hOver | hFits
            · rcases hMonotone.refuses profile _ hOver with
                ⟨reason, hRefused⟩
              rw [hRefused]
              exact ih (hNarrowed.refuse hUnits.2 hUnits.1 hOver)
                hComplete (by dsimp only; omega)
            · have hPos :
                  0 <
                    (search.low + search.high) / 2 *
                      alignment :=
                Nat.mul_pos (by omega) hAlignment
              rcases hMonotone.accepts profile _ hPos hFits with
                ⟨plans, hAccepted, hValid⟩
              rw [hAccepted]
              dsimp only
              rw [hValid]
              exact ih
                (hNarrowed.accept hUnits.1 hUnits.2 hFits
                  hAccepted)
                hComplete (by dsimp only; omega)
      · intro hClosed
        apply Triple.value
        intro machine hSince
        refine ⟨hSince, hNarrowed, fun _ => by omega, ?_⟩
        intro hFalse
        rw [hComplete] at hFalse
        cases hFalse

----------------
-- The Search Over Profiles
----------------

/- What is kept is an admitted beam of its profile. -/
def Sound
    (admission : Admission)
    (upperBound alignment : Nat)
    (profiles : List Environment)
    (best : Option CapacityResult) : Prop :=
  ∀ result, best = some result →
    result.requestedBeam = result.effectiveBeam ∧
      result.profile ∈ profiles ∧
      result.effectiveBeam ∈
        admittedBeams admission upperBound alignment
          result.profile ∧
      admission result.effectiveBeam result.profile =
        .ok result.plans

/- No admitted beam of these profiles is larger than what is kept. -/
def Covers
    (admission : Admission)
    (upperBound alignment : Nat)
    (profiles : List Environment)
    (best : Option CapacityResult) : Prop :=
  ∀ profile ∈ profiles,
    ∀ beam ∈ admittedBeams admission upperBound alignment profile,
      ∃ result, best = some result ∧ beam ≤ result.effectiveBeam

section Profiles

variable {upperBound alignment : Nat}
variable {profile : Environment}
variable {profiles : List Environment}
variable {search : Bisection}
variable {best : Option CapacityResult}

/- What a bisection accepted is an admitted multiple. -/
theorem Narrowed.mem_admittedBeams
    (hNarrowed :
      Narrowed admission limit alignment
        (upperBound / alignment) profile search)
    (hAlignment : 0 < alignment)
    {plans : List Json}
    (hAccepted : search.accepted = some plans) :
    search.low * alignment ∈
        admittedBeams admission upperBound alignment profile ∧
      admission (search.low * alignment) profile =
        .ok plans := by
  rcases hNarrowed.accepted with ⟨hNone, -⟩ | hSome
  · rw [hNone] at hAccepted
    cases hAccepted
  · rcases hSome with ⟨found, hFound, hPos, hAnswer⟩
    rw [hAccepted] at hFound
    injection hFound with hFound
    subst hFound
    have hLow : search.low ≤ upperBound / alignment := by
      have hLt := hNarrowed.low_lt
      have hLe := hNarrowed.high_le
      omega
    exact ⟨⟨Nat.mul_pos hPos hAlignment,
      Nat.dvd_mul_left _ _,
      (Nat.mul_le_mul_right _ hLow).trans
        (Nat.div_mul_le_self _ _),
      plans, hAnswer⟩, hAnswer⟩

theorem sound_keepBest
    (hNarrowed :
      Narrowed admission limit alignment
        (upperBound / alignment) profile search)
    (hAlignment : 0 < alignment)
    (hMem : profile ∈ profiles)
    (hSound :
      Sound admission upperBound alignment profiles best) :
    Sound admission upperBound alignment profiles
      (keepBest alignment profile search best) := by
  unfold keepBest
  dsimp only
  split
  · exact hSound
  · rename_i plans hAccepted
    split_ifs
    · intro result hResult
      injection hResult with hResult
      subst hResult
      exact ⟨rfl, hMem,
        hNarrowed.mem_admittedBeams hAlignment hAccepted⟩
    · exact hSound

/- The kept beam is no smaller than before. -/
theorem le_keepBest
    (profile : Environment)
    (search : Bisection)
    {result : CapacityResult}
    (hSound :
      Sound admission upperBound alignment profiles best)
    (hBest : best = some result) :
    ∃ kept,
      keepBest alignment profile search best = some kept ∧
        result.effectiveBeam ≤ kept.effectiveBeam := by
  have hSame := (hSound result hBest).1
  subst hBest
  unfold keepBest
  dsimp only
  split
  · exact ⟨result, rfl, le_rfl⟩
  · split_ifs with hLarger
    · refine ⟨_, rfl, ?_⟩
      simp only [Option.all_some, decide_eq_true_eq] at hLarger
      dsimp only
      omega
    · exact ⟨result, rfl, le_rfl⟩

/- The kept beam is no smaller than the bisection's. -/
theorem low_le_keepBest
    (profile : Environment)
    {plans : List Json}
    (hSound :
      Sound admission upperBound alignment profiles best)
    (hAccepted : search.accepted = some plans) :
    ∃ kept,
      keepBest alignment profile search best = some kept ∧
        search.low * alignment ≤ kept.effectiveBeam := by
  unfold keepBest
  dsimp only
  rw [hAccepted]
  dsimp only
  split_ifs with hLarger
  · exact ⟨_, rfl, le_rfl⟩
  · cases best with
    | none => simp at hLarger
    | some result =>
        have hSame := (hSound result rfl).1
        refine ⟨result, rfl, ?_⟩
        simp only [Option.all_some, decide_eq_true_eq] at hLarger
        omega

theorem covers_keepBest
    (hMonotone : MonotoneAdmission admission limit)
    (hAlignment : 0 < alignment)
    (hNarrowed :
      Narrowed admission limit alignment
        (upperBound / alignment) profile search)
    (hClosed : search.high ≤ search.low + 1)
    {seen : List Environment}
    (hSound :
      Sound admission upperBound alignment profiles best)
    (hCovers :
      Covers admission upperBound alignment seen best) :
    Covers admission upperBound alignment (seen ++ [profile])
      (keepBest alignment profile search best) := by
  intro other hOther beam hBeam
  rcases List.mem_append.mp hOther with hSeen | hLast
  · rcases hCovers other hSeen beam hBeam with
      ⟨result, hBest, hLe⟩
    rcases le_keepBest profile search hSound hBest with
      ⟨kept, hKept, hMore⟩
    exact ⟨kept, hKept, hLe.trans hMore⟩
  · rw [List.mem_singleton] at hLast
    subst hLast
    rcases hBeam with ⟨hPos, ⟨units, hUnits⟩, hUpper, hAdmitted⟩
    have hLimit := hMonotone.le_limit hAdmitted
    rw [Nat.mul_comm] at hUnits
    subst hUnits
    have hLow : units ≤ search.low :=
      hNarrowed.le_low hClosed
        ((Nat.le_div_iff_mul_le hAlignment).mpr hUpper) hLimit
    have hUnitsPos : 0 < units := Nat.pos_of_mul_pos_right hPos
    rcases hNarrowed.accepted with ⟨-, hZero⟩ | hSome
    · omega
    · rcases hSome with ⟨plans, hAccepted, -, -⟩
      rcases low_le_keepBest other hSound hAccepted with
        ⟨kept, hKept, hLe⟩
      exact ⟨kept, hKept,
        (Nat.mul_le_mul_right _ hLow).trans hLe⟩

/- A search that was not cut covers every profile. -/
def Searched
    (clock : Nat → Nat)
    (deadline since : Nat)
    (admission : Admission)
    (upperBound alignment : Nat)
    (profiles seen : List Environment)
    (found : Found)
    (machine : Machine) : Prop :=
  since ≤ machine.readings ∧
    Sound admission upperBound alignment profiles found.best ∧
    (found.complete = true →
      Covers admission upperBound alignment seen found.best) ∧
    (found.complete = false →
      Late clock deadline since machine)

theorem searchProfiles_triple
    (hMonotone : MonotoneAdmission admission limit)
    (hAlignment : 0 < alignment)
    {seen rest : List Environment}
    {found : Found}
    (hAll : seen ++ rest = profiles)
    (hComplete : found.complete = true) :
    Triple
      (Searched clock deadline since admission upperBound
        alignment profiles seen found)
      (searchProfiles clock deadline admission alignment
        (upperBound / alignment) rest found)
      (Searched clock deadline since admission upperBound
        alignment profiles profiles)
      (fun error _ =>
        error = .message "capacity probe counter overflow") := by
  induction rest generalizing seen found with
  | nil =>
      rw [List.append_nil] at hAll
      subst hAll
      exact Triple.value fun _ hSearched => hSearched
  | cons profile rest ih =>
      have hMem : profile ∈ profiles := by
        rw [← hAll]
        exact List.mem_append_right _ List.mem_cons_self
      unfold searchProfiles
      apply Triple.of_state
      intro machine hSearched
      rcases hSearched with ⟨hSince, hSound, hCovers, -⟩
      apply Triple.seq
        ((bisect_triple hMonotone hAlignment
          (Narrowed.start found.probes found.complete)
          hComplete le_rfl).pre fun _ hSame =>
            hSame ▸ hSince)
      intro search
      apply Triple.of_state
      rintro after ⟨hAfter, hNarrowed, hClosed, hLate⟩
      have hKept :=
        sound_keepBest hNarrowed hAlignment hMem hSound
      apply Triple.branch
      · intro hUncut
        refine (@ih (seen ++ [profile]) _ ?_ hUncut).pre ?_
        · rw [List.append_assoc]
          exact hAll
        · intro other hSame
          subst hSame
          refine ⟨hAfter, hKept, fun _ => ?_, ?_⟩
          · exact covers_keepBest hMonotone hAlignment hNarrowed
              (hClosed hUncut) hSound (hCovers hComplete)
          · intro hCut
            exact hLate hCut
      · intro hCut
        apply Triple.value
        intro other hSame
        subst hSame
        refine ⟨hAfter, hKept, fun hUncut => ?_, fun hFalse => ?_⟩
        · exact absurd hUncut hCut
        · exact hLate hFalse

/-
  A result is an admitted beam of its profile, and the largest
  one unless the search was cut. A rejection means that nothing
  is admitted, or that the deadline passed.
-/
theorem findCapacity_triple
    (hMonotone : MonotoneAdmission admission limit) :
    Triple (fun machine => since ≤ machine.readings)
      (findCapacity clock deadline admission profiles
        upperBound alignment)
      (fun result machine =>
        since ≤ machine.readings ∧
          result.profile ∈ profiles ∧
          result.effectiveBeam ∈
            admittedBeams admission upperBound alignment
              result.profile ∧
          admission result.effectiveBeam result.profile =
            .ok result.plans ∧
          (result.searchComplete = true →
            ∀ profile ∈ profiles,
              ∀ beam ∈
                admittedBeams admission upperBound alignment
                  profile,
                beam ≤ result.effectiveBeam) ∧
          (result.searchComplete = false →
            Late clock deadline since machine))
      (fun error machine =>
        ∀ reason, error = .capacityRejected reason →
          since ≤ machine.readings ∧
            (Late clock deadline since machine ∨
              ∀ profile ∈ profiles,
                admittedBeams admission upperBound alignment
                    profile =
                  ∅)) := by
  unfold findCapacity
  apply Triple.branch
  · intro _
    apply Triple.stop
    intro _ _ _ hReason
    cases hReason
  · intro hGeometry
    push Not at hGeometry
    have hAlignment : 0 < alignment :=
      Nat.pos_of_ne_zero hGeometry.1
    have hStart :
        Triple (fun machine => since ≤ machine.readings)
          (searchProfiles clock deadline admission alignment
            (upperBound / alignment) profiles
            { best := none
              probes := 0
              complete := true })
          (Searched clock deadline since admission upperBound
            alignment profiles profiles)
          (fun error _ =>
            error =
              .message "capacity probe counter overflow") := by
      apply (searchProfiles_triple hMonotone hAlignment
        (List.nil_append profiles) rfl).pre
      intro machine hSince
      refine ⟨hSince, ?_, ?_, ?_⟩
      · intro _ hBest
        cases hBest
      · intro _ _ hMem
        cases hMem
      · intro hFalse
        cases hFalse
    refine Triple.seq (hStart.stop_mono ?_) ?_
    · intro error _ hError reason hReason
      subst hError
      cases hReason
    · intro found
      apply Triple.of_state
      rintro machine ⟨hSince, hSound, hCovers, hLate⟩
      cases hBest : found.best with
      | none =>
          apply Triple.stop
          intro other hSame reason _
          subst hSame
          refine ⟨hSince, ?_⟩
          cases hComplete : found.complete with
          | false => exact .inl (hLate hComplete)
          | true =>
              right
              intro profile hMem
              rw [Set.eq_empty_iff_forall_notMem]
              intro beam hBeam
              rcases hCovers hComplete profile hMem beam hBeam
                with ⟨result, hResult, -⟩
              rw [hBest] at hResult
              cases hResult
      | some best =>
          apply Triple.value
          intro other hSame
          subst hSame
          rcases hSound best hBest with
            ⟨-, hMem, hAdmitted, hAnswer⟩
          refine ⟨hSince, hMem, hAdmitted, hAnswer, ?_, hLate⟩
          intro hComplete profile hProfile beam hBeam
          rcases hCovers hComplete profile hProfile beam hBeam
            with ⟨result, hResult, hLe⟩
          rw [hBest] at hResult
          injection hResult with hResult
          subst hResult
          exact hLe

end Profiles

end Correctness

end Calibration

end BeamSearch
