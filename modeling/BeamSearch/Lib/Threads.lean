import Mathlib.Logic.Function.Basic
import Mathlib.Tactic.Common

/-
  Threads that share a state.

  Every thread runs a sequential program over its own registers.
  A schedule names the thread that takes the next step; a run
  follows a schedule, so that the schedules are all the orders
  in which the threads can be interleaved.

  Main declarations:
    * `Pool`, `stepAt`, `run`
    * `run_invariant`
    * `Guarded`, `run_of_guarded`
    * `run_select`, `guarded_select`
-/

namespace Threads

variable {S L : Type}

/- The shared state and the registers of every thread. -/
structure Pool (S L : Type) where
  shared : S
  threads : Nat → L

/- One step of one thread. -/
def stepAt
    (step : Nat → S → L → S × L)
    (pool : Pool S L)
    (tid : Nat) : Pool S L :=
  let next := step tid pool.shared (pool.threads tid)
  { shared := next.1
    threads := Function.update pool.threads tid next.2 }

/- The pool after a schedule. -/
def run
    (step : Nat → S → L → S × L)
    (pool : Pool S L)
    (schedule : List Nat) : Pool S L :=
  schedule.foldl (stepAt step) pool

variable {step : Nat → S → L → S × L}

/- A schedule in two parts. -/
theorem run_append
    (pool : Pool S L)
    (earlier later : List Nat) :
    run step pool (earlier ++ later) =
      run step (run step pool earlier) later :=
  List.foldl_append

/- The thread that moves. -/
theorem threads_stepAt_self
    (pool : Pool S L)
    (tid : Nat) :
    (stepAt step pool tid).threads tid =
      (step tid pool.shared (pool.threads tid)).2 :=
  Function.update_self _ _ _

/- The other threads stay. -/
theorem threads_stepAt_of_ne
    {tid other : Nat}
    (pool : Pool S L)
    (hNe : other ≠ tid) :
    (stepAt step pool tid).threads other =
      pool.threads other :=
  Function.update_of_ne hNe _ _

/- A thread does not touch the registers of another. -/
theorem threads_run_alone
    {tid other : Nat}
    (pool : Pool S L)
    (count : Nat)
    (hNe : other ≠ tid) :
    (run step pool (List.replicate count tid)).threads other =
      pool.threads other := by
  induction count generalizing pool with
  | zero => rfl
  | succ count ih =>
      calc (run step pool (List.replicate (count + 1) tid)).threads
            other
          = (run step (stepAt step pool tid)
              (List.replicate count tid)).threads other := rfl
        _ = (stepAt step pool tid).threads other := ih _
        _ = pool.threads other := threads_stepAt_of_ne pool hNe

----------------
-- Invariants
----------------

variable {J : Pool S L → Prop} {pool : Pool S L}

/- What every step keeps, every run keeps. -/
theorem run_invariant
    (hStep : ∀ pool tid, J pool → J (stepAt step pool tid))
    (hStart : J pool)
    (schedule : List Nat) :
    J (run step pool schedule) := by
  induction schedule generalizing pool with
  | nil => exact hStart
  | cons tid schedule ih => exact ih (hStep pool tid hStart)

/- Every step of a run is taken where `G` holds. -/
def Guarded
    (step : Nat → S → L → S × L)
    (G : Pool S L → Nat → Prop)
    (pool : Pool S L) : List Nat → Prop
  | [] => True
  | tid :: schedule =>
      G pool tid ∧ Guarded step G (stepAt step pool tid) schedule

variable {G : Pool S L → Nat → Prop}

/- An invariant that holds while every step is guarded. -/
theorem run_of_guarded
    {schedule : List Nat}
    (hStep :
      ∀ pool tid, J pool → G pool tid → J (stepAt step pool tid))
    (hStart : J pool)
    (hGuarded : Guarded step G pool schedule) :
    J (run step pool schedule) := by
  induction schedule generalizing pool with
  | nil => exact hStart
  | cons tid schedule ih =>
      exact ih (hStep pool tid hStart hGuarded.1) hGuarded.2

/- A guard that always holds. -/
theorem guarded_of_forall
    (hStep : ∀ pool tid, J pool → J (stepAt step pool tid))
    (hGuard : ∀ pool tid, J pool → G pool tid)
    (hStart : J pool)
    (schedule : List Nat) :
    Guarded step G pool schedule := by
  induction schedule generalizing pool with
  | nil => trivial
  | cons tid schedule ih =>
      exact ⟨hGuard pool tid hStart, ih (hStep pool tid hStart)⟩

/- The step of an unguarded run that breaks the guard. -/
theorem exists_of_not_guarded
    {schedule : List Nat}
    (hNot : ¬ Guarded step G pool schedule) :
    ∃ earlier tid later,
      schedule = earlier ++ tid :: later ∧
        ¬ G (run step pool earlier) tid := by
  induction schedule generalizing pool with
  | nil => exact absurd trivial hNot
  | cons tid schedule ih =>
      by_cases hHere : G pool tid
      · have hLater :
            ¬ Guarded step G (stepAt step pool tid) schedule :=
          fun hRest => hNot ⟨hHere, hRest⟩
        rcases ih hLater with
          ⟨earlier, other, later, hSplit, hBroken⟩
        exact
          ⟨tid :: earlier, other, later, by rw [hSplit]; rfl,
            hBroken⟩
      · exact ⟨[], tid, schedule, rfl, hHere⟩

/- Every step of a guarded run was guarded. -/
theorem guarded_at
    {earlier later : List Nat}
    {tid : Nat}
    (hGuarded :
      Guarded step G pool (earlier ++ tid :: later)) :
    G (run step pool earlier) tid := by
  induction earlier generalizing pool with
  | nil => exact hGuarded.1
  | cons first earlier ih => exact ih hGuarded.2

----------------
-- Some Of The Threads
----------------

/-
  A part of the threads seen as a pool of its own: `select`
  names the threads of the part, and `R` relates a pool to the
  part's. A step of the part is a step of both, any other step
  leaves the part alone.
-/
variable {S' L' : Type}
variable {part : Nat → S' → L' → S' × L'}
variable {select : Nat → Option Nat}
variable {R : Pool S L → Pool S' L' → Prop}

/- A run is, for the part, the run of the part's own steps. -/
theorem run_select
    {own : Pool S' L'}
    (hOwn :
      ∀ pool own tid t, R pool own → select tid = some t →
        R (stepAt step pool tid) (stepAt part own t))
    (hOther :
      ∀ pool own tid, R pool own → select tid = none →
        R (stepAt step pool tid) own)
    (hStart : R pool own)
    (schedule : List Nat) :
    R (run step pool schedule)
      (run part own (schedule.filterMap select)) := by
  induction schedule generalizing pool own with
  | nil => exact hStart
  | cons tid schedule ih =>
      cases hSelect : select tid with
      | none =>
          rw [List.filterMap_cons_none hSelect]
          exact ih (hOther pool own tid hStart hSelect)
      | some t =>
          rw [List.filterMap_cons_some hSelect]
          exact ih (hOwn pool own tid t hStart hSelect)

/- A guard on all threads guards the part's own run. -/
theorem guarded_select
    {G' : Pool S' L' → Nat → Prop}
    {own : Pool S' L'}
    {schedule : List Nat}
    (hOwn :
      ∀ pool own tid t, R pool own → select tid = some t →
        R (stepAt step pool tid) (stepAt part own t))
    (hOther :
      ∀ pool own tid, R pool own → select tid = none →
        R (stepAt step pool tid) own)
    (hGuard :
      ∀ pool own tid t, R pool own → select tid = some t →
        G pool tid → G' own t)
    (hStart : R pool own)
    (hGuarded : Guarded step G pool schedule) :
    Guarded part G' own (schedule.filterMap select) := by
  induction schedule generalizing pool own with
  | nil => trivial
  | cons tid schedule ih =>
      cases hSelect : select tid with
      | none =>
          rw [List.filterMap_cons_none hSelect]
          exact
            ih (hOther pool own tid hStart hSelect) hGuarded.2
      | some t =>
          rw [List.filterMap_cons_some hSelect]
          exact
            ⟨hGuard pool own tid t hStart hSelect hGuarded.1,
              ih (hOwn pool own tid t hStart hSelect)
                hGuarded.2⟩

end Threads
