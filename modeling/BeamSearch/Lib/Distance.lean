import Mathlib.Order.Bounds.Basic
import Mathlib.Data.Nat.Find
import Mathlib.Tactic.Common

/-
  Distances in a labelled transition system.

  A path is a list of labels that leads from one state to
  another. The distance to a goal is the least length of a path,
  when there is one, and grows by at most one in every step.

  Main declarations:
    * `Path`, `lengths`
    * `Within`, `At`
    * `at_succ_iff`
    * `exists_path_at`
    * `within_of_path`
-/

namespace Distance

variable {S M : Type}

----------------
-- Paths
----------------

/- The labels lead from one state to the other. -/
def Path (step : S → M → S → Prop) : S → List M → S → Prop
  | s, [], t => s = t
  | s, m :: ms, t => ∃ u, step s m u ∧ Path step u ms t

/- The numbers of steps in which the goal can be reached. -/
def lengths
    (step : S → M → S → Prop)
    (goal s : S) : Set Nat :=
  fun n => ∃ ms : List M, ms.length = n ∧ Path step s ms goal

/- The goal can be reached by at most `n` steps. -/
def Within
    (step : S → M → S → Prop)
    (goal : S)
    (n : Nat)
    (s : S) : Prop :=
  ∃ k ≤ n, k ∈ lengths step goal s

/- The distance is exactly `n`. -/
def At
    (step : S → M → S → Prop)
    (goal : S)
    (n : Nat)
    (s : S) : Prop :=
  IsLeast (lengths step goal s) n

variable {step : S → M → S → Prop} {goal s t : S}

/- A path in two parts. -/
theorem path_append
    {earlier later : List M} :
    Path step s (earlier ++ later) t ↔
      ∃ u, Path step s earlier u ∧ Path step u later t := by
  induction earlier generalizing s with
  | nil => exact ⟨fun hPath => ⟨s, rfl, hPath⟩,
      fun ⟨u, hSame, hPath⟩ => hSame ▸ hPath⟩
  | cons m earlier ih =>
      constructor
      · rintro ⟨u, hStep, hPath⟩
        rcases ih.mp hPath with ⟨v, hEarlier, hLater⟩
        exact ⟨v, ⟨u, hStep, hEarlier⟩, hLater⟩
      · rintro ⟨v, ⟨u, hStep, hEarlier⟩, hLater⟩
        exact ⟨u, hStep, ih.mpr ⟨v, hEarlier, hLater⟩⟩

/- Labels that a partial action applies one after another. -/
theorem path_iff_foldlM
    {ε : Type}
    {apply : S → M → Except ε S}
    {ms : List M} :
    Path (fun s m t => apply s m = .ok t) s ms t ↔
      ms.foldlM apply s = .ok t := by
  induction ms generalizing s with
  | nil =>
      exact ⟨fun hSame => hSame ▸ rfl, fun hOk => Except.ok.inj hOk⟩
  | cons m ms ih =>
      rw [List.foldlM_cons]
      constructor
      · rintro ⟨u, hStep, hPath⟩
        rw [hStep]
        exact ih.mp hPath
      · intro hRun
        cases hStep : apply s m with
        | error error =>
            rw [hStep] at hRun
            cases hRun
        | ok u =>
            rw [hStep] at hRun
            exact ⟨u, hStep, ih.mpr hRun⟩

----------------
-- Within A Number Of Steps
----------------

/- More steps reach no less. -/
theorem Within.mono
    {m n : Nat}
    (hWithin : Within step goal m s)
    (hLe : m ≤ n) : Within step goal n s := by
  rcases hWithin with ⟨k, hk, hLength⟩
  exact ⟨k, hk.trans hLe, hLength⟩

/- Without a step only the goal is reached. -/
theorem within_zero : Within step goal 0 s ↔ s = goal := by
  constructor
  · rintro ⟨k, hk, ms, hLength, hPath⟩
    have hNil : ms = [] :=
      List.eq_nil_of_length_eq_zero (by omega)
    rw [hNil] at hPath
    exact hPath
  · rintro rfl
    exact ⟨0, le_rfl, [], rfl, rfl⟩

/- The goal is near, or one step away from a near state. -/
theorem within_succ
    {n : Nat} :
    Within step goal (n + 1) s ↔
      Within step goal n s ∨
        ∃ m u, step s m u ∧ Within step goal n u := by
  constructor
  · rintro ⟨k, hk, ms, hLength, hPath⟩
    cases ms with
    | nil => exact Or.inl ⟨0, Nat.zero_le _, [], rfl, hPath⟩
    | cons m ms =>
        rcases hPath with ⟨u, hStep, hPath⟩
        rw [List.length_cons] at hLength
        exact Or.inr
          ⟨m, u, hStep, ms.length, by omega, ms, rfl, hPath⟩
  · rintro (hNear | ⟨m, u, hStep, k, hk, ms, hLength, hPath⟩)
    · exact hNear.mono (Nat.le_succ n)
    · exact
        ⟨k + 1, by omega, m :: ms, by rw [List.length_cons, hLength],
          u, hStep, hPath⟩

/- A path to a near state leads near. -/
theorem within_of_path
    {ms : List M}
    {n : Nat}
    (hPath : Path step s ms t)
    (hWithin : Within step goal n t) :
    Within step goal (ms.length + n) s := by
  rcases hWithin with ⟨k, hk, rest, hLength, hRest⟩
  refine ⟨ms.length + k, by omega, ms ++ rest, ?_, ?_⟩
  · rw [List.length_append, hLength]
  · exact path_append.mpr ⟨t, hPath, hRest⟩

----------------
-- Exact Distances
----------------

/- The distance is within itself. -/
theorem At.within
    {n : Nat}
    (hAt : At step goal n s) : Within step goal n s :=
  ⟨n, le_rfl, hAt.1⟩

/- The distance is the least. -/
theorem At.not_within
    {n k : Nat}
    (hAt : At step goal n s)
    (hLt : k < n) : ¬ Within step goal k s := by
  rintro ⟨l, hl, hLength⟩
  have hLeast := hAt.2 hLength
  omega

/- So it is below every other bound. -/
theorem At.le_of_within
    {n k : Nat}
    (hAt : At step goal n s)
    (hWithin : Within step goal k s) : n ≤ k := by
  by_contra hLt
  exact hAt.not_within (by omega) hWithin

/- Within a bound is at some distance below it. -/
theorem within_iff
    {n : Nat} :
    Within step goal n s ↔ ∃ k ≤ n, At step goal k s := by
  constructor
  · rintro ⟨k, hk, hLength⟩
    classical
    have hSome : ∃ l, l ∈ lengths step goal s := ⟨k, hLength⟩
    refine ⟨Nat.find hSome, ?_, Nat.find_spec hSome, ?_⟩
    · exact (Nat.find_min' hSome hLength).trans hk
    · intro l hl
      exact Nat.find_min' hSome hl
  · rintro ⟨k, hk, hAt⟩
    exact hAt.within.mono hk

/- Only the goal is at distance zero. -/
theorem at_zero : At step goal 0 s ↔ s = goal := by
  constructor
  · intro hAt
    exact within_zero.mp hAt.within
  · rintro rfl
    exact ⟨⟨[], rfl, rfl⟩, fun _ _ => Nat.zero_le _⟩

/- What is newly within a bound is at that distance. -/
theorem At.of_within
    {n : Nat}
    (hWithin : Within step goal (n + 1) s)
    (hFar : ¬ Within step goal n s) :
    At step goal (n + 1) s := by
  rcases within_iff.mp hWithin with ⟨k, hk, hAt⟩
  have hSame : k = n + 1 := by
    by_contra hNe
    exact hFar (hAt.within.mono (by omega))
  rw [← hSame]
  exact hAt

/- The next layer: not near yet, with a step into the last layer. -/
theorem at_succ_iff
    {n : Nat} :
    At step goal (n + 1) s ↔
      ¬ Within step goal n s ∧
        ∃ m u, step s m u ∧ At step goal n u := by
  constructor
  · intro hAt
    have hFar := hAt.not_within (Nat.lt_succ_self n)
    refine ⟨hFar, ?_⟩
    rcases within_succ.mp hAt.within with
      hNear | ⟨m, u, hStep, hNear⟩
    · exact absurd hNear hFar
    · refine ⟨m, u, hStep, ?_⟩
      rcases within_iff.mp hNear with ⟨k, hk, hAtU⟩
      have hSame : k = n := by
        by_contra hNe
        have hShort : Within step goal (k + 1) s :=
          within_succ.mpr (Or.inr ⟨m, u, hStep, hAtU.within⟩)
        exact hFar (hShort.mono (by omega))
      rw [← hSame]
      exact hAtU
  · rintro ⟨hFar, m, u, hStep, hAt⟩
    exact At.of_within
      (within_succ.mpr (Or.inr ⟨m, u, hStep, hAt.within⟩)) hFar

/- Along a shortest path the distance drops by one a step. -/
theorem exists_path_at
    {n k : Nat}
    (hAt : At step goal (k + n) s) :
    ∃ ms u, ms.length = k ∧ Path step s ms u ∧
      At step goal n u := by
  induction k generalizing s with
  | zero =>
      rw [Nat.zero_add] at hAt
      exact ⟨[], s, rfl, rfl, hAt⟩
  | succ k ih =>
      have hNext : At step goal (k + n + 1) s := by
        rw [Nat.add_right_comm]
        exact hAt
      rcases (at_succ_iff.mp hNext).2 with ⟨m, u, hStep, hAtU⟩
      rcases ih hAtU with ⟨ms, v, hLength, hPath, hAtV⟩
      exact
        ⟨m :: ms, v, by rw [List.length_cons, hLength],
          ⟨u, hStep, hPath⟩, hAtV⟩

end Distance
