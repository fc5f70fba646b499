import BeamSearch.Solve.Neighborhood

/-
  Undoing a move.

  Generators permute the storage positions and keep the padding
  apart. On states with a zero padding, undoing a move is then
  exactly the inverse of applying it, and the padding stays zero.

  Main declarations:
    * `Puzzle.Permutes`
    * `Clean`
    * `Moves`
    * `applyInverseMoveFlatHost_iff`
-/

namespace BeamSearch

open Distance Final

namespace Solve

----------------
-- Permutations
----------------

/- Every generator permutes the positions, which are bytes. -/
structure Puzzle.Permutes (puzzle : Puzzle) : Prop where
  bytes : puzzle.layout.storageLen ≤ 256
  range : ∀ move < puzzle.moveCount,
    ∀ p < puzzle.layout.storageLen,
      puzzle.generators move p < puzzle.layout.storageLen
  injective : ∀ move < puzzle.moveCount,
    ∀ p < puzzle.layout.storageLen,
      ∀ q < puzzle.layout.storageLen,
        puzzle.generators move p = puzzle.generators move q →
          p = q
  logical : ∀ move < puzzle.moveCount,
    ∀ p < puzzle.layout.stateLen,
      puzzle.generators move p < puzzle.layout.stateLen

theorem stateLen_le_storageLen (layout : StateLayout) :
    layout.stateLen ≤ layout.storageLen := by
  have hRoom := layout.room
  omega

/- An injective map of an initial segment reaches all of it. -/
theorem exists_preimage
    {n : Nat}
    {f : Nat → Nat}
    (hRange : ∀ p < n, f p < n)
    (hInjective : ∀ p < n, ∀ q < n, f p = f q → p = q)
    {q : Nat}
    (hq : q < n) :
    ∃ p < n, f p = q := by
  let g : Fin n → Fin n := fun p => ⟨f p, hRange p p.isLt⟩
  have hInj : Function.Injective g := by
    intro p r hSame
    exact Fin.ext
      (hInjective p p.isLt r r.isLt (Fin.mk.inj hSame))
  rcases Finite.injective_iff_surjective.mp hInj ⟨q, hq⟩ with
    ⟨p, hp⟩
  exact ⟨p, p.isLt, congrArg Fin.val hp⟩

variable {puzzle : Puzzle}

/- Every logical position has a logical source. -/
theorem Puzzle.Permutes.exists_logical
    (hPermutes : puzzle.Permutes)
    {move q : Nat}
    (hMove : move < puzzle.moveCount)
    (hq : q < puzzle.layout.stateLen) :
    ∃ p < puzzle.layout.stateLen,
      puzzle.generators move p = q := by
  have hLe := stateLen_le_storageLen puzzle.layout
  exact exists_preimage (hPermutes.logical move hMove)
    (fun p hp r hr => hPermutes.injective move hMove p
      (by omega) r (by omega)) hq

----------------
-- Clean States
----------------

/- Zero from the logical length on. -/
def Clean (layout : StateLayout) (state : State) : Prop :=
  ∀ p, layout.stateLen ≤ p → state p = 0

theorem Clean.ext
    {layout : StateLayout}
    {a b : State}
    (hA : Clean layout a)
    (hB : Clean layout b)
    (hSame : ∀ p < layout.stateLen, a p = b p) :
    a = b := by
  funext p
  by_cases hp : p < layout.stateLen
  · exact hSame p hp
  · rw [hA p (by omega), hB p (by omega)]

theorem clearStatePadding_of_lt
    {layout : StateLayout}
    {state : State}
    {p : Nat}
    (hp : p < layout.stateLen) :
    clearStatePadding layout state p = state p :=
  if_neg fun hPad => absurd hPad.1 (by omega)

/- Clearing is enough for a state without bytes past the storage. -/
theorem clearStatePadding_clean
    {layout : StateLayout}
    {state : State}
    (hPast : ∀ p, layout.storageLen ≤ p → state p = 0) :
    Clean layout (clearStatePadding layout state) := by
  intro p hp
  rw [clearStatePadding]
  split_ifs with hPad
  · rfl
  · exact hPast p (by omega)

theorem applyMove_of_lt
    {layout : StateLayout}
    {parent : State}
    {generator : Nat → Nat}
    {p : Nat}
    (hp : p < layout.storageLen) :
    applyMove layout parent generator p = parent (generator p) :=
  if_pos hp

/- What one move of the puzzle does. -/
def Moves (puzzle : Puzzle) (s : State) (move : Nat) (t : State) :
    Prop :=
  applyMoveFlatHost puzzle s move = .ok t

theorem moves_iff
    {s t : State}
    {move : Nat} :
    Moves puzzle s move t ↔
      move < puzzle.moveCount ∧
        clearStatePadding puzzle.layout
          (applyMove puzzle.layout s (puzzle.generators move)) =
          t := by
  rw [Moves, applyMoveFlatHost]
  split_ifs with hMove
  · exact iff_of_false (fun hOk => nomatch hOk) (by omega)
  · rw [Except.ok.injEq]
    exact (and_iff_right (by omega)).symm

theorem Moves.clean
    {s t : State}
    {move : Nat}
    (hStep : Moves puzzle s move t) :
    Clean puzzle.layout t := by
  rw [← (moves_iff.mp hStep).2]
  exact clearStatePadding_clean fun p hp =>
    if_neg (by omega)

theorem Moves.apply
    {s t : State}
    {move p : Nat}
    (hStep : Moves puzzle s move t)
    (hp : p < puzzle.layout.stateLen) :
    t p = s (puzzle.generators move p) := by
  have hLe := stateLen_le_storageLen puzzle.layout
  rw [← (moves_iff.mp hStep).2, clearStatePadding_of_lt hp,
    applyMove_of_lt (by omega)]

----------------
-- Undoing
----------------

/- A scatter over different places writes every value. -/
theorem scatter_apply
    {f : Nat → Nat}
    {v start : Nat → UInt8}
    {xs : List Nat}
    (hInjective : ∀ p ∈ xs, ∀ q ∈ xs, f p = f q → p = q)
    {p : Nat}
    (hp : p ∈ xs) :
    xs.foldl (fun s p => Function.update s (f p) (v p)) start
        (f p) = v p := by
  induction xs using List.reverseRecOn with
  | nil => cases hp
  | append_singleton xs q ih =>
      rw [List.foldl_append, List.foldl_cons, List.foldl_nil]
      by_cases hSame : f p = f q
      · have hEq := hInjective p hp q (by simp) hSame
        rw [hEq, Function.update_self]
      · rw [Function.update_of_ne hSame]
        refine ih
          (fun a ha b hb => hInjective a
            (List.mem_append_left _ ha) b
            (List.mem_append_left _ hb)) ?_
        rcases List.mem_append.mp hp with hOld | hLast
        · exact hOld
        · rw [List.mem_singleton] at hLast
          exact absurd (congrArg f hLast) hSame

theorem scatter_of_ne
    {f : Nat → Nat}
    {v start : Nat → UInt8}
    {xs : List Nat}
    {q : Nat}
    (hNe : ∀ p ∈ xs, q ≠ f p) :
    xs.foldl (fun s p => Function.update s (f p) (v p)) start q =
      start q := by
  induction xs generalizing start with
  | nil => rfl
  | cons p xs ih =>
      rw [List.foldl_cons, ih fun r hr =>
        hNe r (List.mem_cons_of_mem _ hr)]
      exact Function.update_of_ne (hNe p List.mem_cons_self) _ _

theorem inverse_iff
    {child parent : State}
    {move : Nat} :
    applyInverseMoveFlatHost puzzle child move = .ok parent ↔
      move < puzzle.moveCount ∧
        clearStatePadding puzzle.layout
          ((List.range puzzle.layout.storageLen).foldl
            (fun parent p =>
              Function.update parent (puzzle.generators move p)
                (child p))
            fun _ => 0) = parent := by
  rw [applyInverseMoveFlatHost]
  split_ifs with hMove
  · exact iff_of_false (fun hOk => nomatch hOk) (by omega)
  · rw [Except.ok.injEq]
    exact (and_iff_right (by omega)).symm

theorem inverse_clean
    (hPermutes : puzzle.Permutes)
    {child parent : State}
    {move : Nat}
    (hUndo :
      applyInverseMoveFlatHost puzzle child move = .ok parent) :
    Clean puzzle.layout parent := by
  rcases inverse_iff.mp hUndo with ⟨hMove, rfl⟩
  refine clearStatePadding_clean fun p hp => ?_
  refine scatter_of_ne fun q hq => ?_
  have hRange :=
    hPermutes.range move hMove q (List.mem_range.mp hq)
  omega

theorem inverse_apply
    (hPermutes : puzzle.Permutes)
    {child parent : State}
    {move p : Nat}
    (hUndo :
      applyInverseMoveFlatHost puzzle child move = .ok parent)
    (hp : p < puzzle.layout.stateLen) :
    parent (puzzle.generators move p) = child p := by
  have hLe := stateLen_le_storageLen puzzle.layout
  rcases inverse_iff.mp hUndo with ⟨hMove, rfl⟩
  rw [clearStatePadding_of_lt (hPermutes.logical move hMove p hp)]
  refine scatter_apply (fun q hq r hr => ?_)
    (List.mem_range.mpr (by omega))
  exact hPermutes.injective move hMove q (List.mem_range.mp hq) r
    (List.mem_range.mp hr)

/- On clean states, undoing is the inverse of applying. -/
theorem applyInverseMoveFlatHost_iff
    (hPermutes : puzzle.Permutes)
    {s t : State}
    {move : Nat}
    (hT : Clean puzzle.layout t) :
    applyInverseMoveFlatHost puzzle t move = .ok s ↔
      Clean puzzle.layout s ∧ Moves puzzle s move t := by
  have hLe := stateLen_le_storageLen puzzle.layout
  constructor
  · intro hUndo
    refine ⟨inverse_clean hPermutes hUndo, moves_iff.mpr
      ⟨(inverse_iff.mp hUndo).1, ?_⟩⟩
    refine Clean.ext (clearStatePadding_clean fun p hp =>
      if_neg (by omega)) hT fun p hp => ?_
    rw [clearStatePadding_of_lt hp, applyMove_of_lt (by omega)]
    exact inverse_apply hPermutes hUndo hp
  · rintro ⟨hS, hStep⟩
    have hMove := (moves_iff.mp hStep).1
    have hUndo :
        applyInverseMoveFlatHost puzzle t move = .ok _ :=
      inverse_iff.mpr ⟨hMove, rfl⟩
    have hSame := Clean.ext hS (inverse_clean hPermutes hUndo)
      fun q hq => by
        rcases hPermutes.exists_logical hMove hq with ⟨p, hp, rfl⟩
        rw [inverse_apply hPermutes hUndo hp, hStep.apply hp]
    rw [hSame]
    exact hUndo

end Solve

end BeamSearch
