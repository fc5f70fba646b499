import BeamSearch.Core.Errors
import Mathlib.Data.List.Sort

/-
  Permutation graphs and the replay of a path.

  A generator lists the place every label of the next state
  comes from. A path is replayed from the start state and has
  to end in the center.

  Main declarations:
    * `PermutationGraph`
    * `validate`, `validateStart`, `replay`
    * `Replays`
    * `replay_eq_true`
-/

namespace BeamSearch

/-
  The centre is what is searched for; a generator lists, for
  each place, where its value comes from.
-/
structure PermutationGraph where
  center : List UInt8
  generators : List (List Nat)
deriving DecidableEq, Repr

namespace PermutationGraph

variable {graph : PermutationGraph} {moves : List Nat}

----------------
-- Validation
----------------

/- Every source in range, and none of them twice. -/
def checkSources :
    (seen : List Bool) →
    (sources : List Nat) →
    Except ContractError Unit
  | _, [] => .ok ()
  | seen, source :: sources =>
      match seen[source]? with
      | none => .error (.invalid "generator index")
      | some true =>
          .error (.invalid "generator is not a permutation")
      | some false =>
          checkSources (seen.set source true) sources

/-
  A generator has the length of a state and is checked source
  by source.
-/
def checkGenerators (size : Nat) :
    (generators : List (List Nat)) →
    Except ContractError Unit
  | [] => .ok ()
  | generator :: generators =>
      if generator.length ≠ size then
        .error (.invalid "generator length")
      else do
        checkSources (List.replicate size false) generator
        checkGenerators size generators

/-
  The checks in the order of the source. A large graph may use
  all byte values, a small one the lower half of them.
-/
def validate (graph : PermutationGraph) :
    Except ContractError Unit :=
  let size := graph.center.length
  let limit := if size > 128 then 255 else 127
  if ¬ (1 ≤ size ∧ size ≤ 150) ∨
      ¬ (1 ≤ graph.generators.length ∧
        graph.generators.length ≤ 255) then
    .error (.invalid "permutation graph geometry")
  else if graph.center.any fun v => decide (v.toNat > limit) then
    .error (.invalid "state labels")
  else
    checkGenerators size graph.generators

/- The values of a state in order, as a multiset is compared. -/
def sorted (state : List UInt8) : List UInt8 :=
  state.insertionSort (· ≤ ·)

/- A start has the values of the centre. -/
def validateStart
    (graph : PermutationGraph)
    (start : List UInt8) : Except ContractError Unit := do
  graph.validate
  if sorted start ≠ sorted graph.center then
    .error (.invalid "start state multiset")
  else .ok ()

----------------
-- Replay
----------------

/- A valid generator fills the whole next state. -/
def applyGenerator
    (generator : List Nat)
    (state : List UInt8) : List UInt8 :=
  generator.map fun source => state.getD source 0

/- Every move in turn; an unknown one is refused. -/
def replayMoves (graph : PermutationGraph) :
    (state : List UInt8) →
    (moves : List Nat) →
    Except ContractError (List UInt8)
  | state, [] => .ok state
  | state, movement :: moves =>
      match graph.generators[movement]? with
      | none => .error (.invalid "solution generator IDs")
      | some generator =>
          graph.replayMoves (applyGenerator generator state) moves

/- Whether the moves lead from the start to the centre. -/
def replay
    (graph : PermutationGraph)
    (start : List UInt8)
    (moves : List Nat) : Except ContractError Bool := do
  graph.validateStart start
  let state ← graph.replayMoves start moves
  pure (decide (state = graph.center))

----------------
-- Paths To The Center
----------------

/- Every label of the next state comes from its source. -/
def Step
    (generator : List Nat)
    (state next : List UInt8) : Prop :=
  next.length = state.length ∧
    ∀ i < state.length, ∃ source label,
      generator[i]? = some source ∧
      state[source]? = some label ∧
      next[i]? = some label

/- Move by move from the state to the center. -/
inductive Replays (graph : PermutationGraph) :
    List UInt8 → List Nat → Prop where
  | done : Replays graph graph.center []
  | move
      (state next : List UInt8)
      (movement : Nat)
      (moves : List Nat)
      (generator : List Nat)
      (hGenerator :
        graph.generators[movement]? = some generator)
      (hStep : Step generator state next)
      (hRest : Replays graph next moves) :
      Replays graph state (movement :: moves)

/- A source that passed is a place of the state. -/
theorem checkSources_eq_ok
    {seen : List Bool}
    {sources : List Nat}
    (hOk : checkSources seen sources = .ok ()) :
    ∀ source ∈ sources, source < seen.length := by
  induction sources generalizing seen with
  | nil => exact fun _ hMem => nomatch hMem
  | cons first sources ih =>
      rw [checkSources] at hOk
      cases hSeen : seen[first]? with
      | none =>
          rw [hSeen] at hOk
          cases hOk
      | some used =>
          rw [hSeen] at hOk
          cases used with
          | true => cases hOk
          | false =>
              intro source hMem
              rcases List.mem_cons.mp hMem with rfl | hMem
              · exact (List.getElem?_eq_some_iff.mp hSeen).1
              · have hLt := ih hOk source hMem
                rwa [List.length_set] at hLt

/- So are the sources of all generators. -/
theorem checkGenerators_eq_ok
    {size : Nat}
    {generators : List (List Nat)}
    (hOk : checkGenerators size generators = .ok ()) :
    ∀ generator ∈ generators,
      generator.length = size ∧
        ∀ source ∈ generator, source < size := by
  induction generators with
  | nil => exact fun _ hMem => nomatch hMem
  | cons first generators ih =>
      rw [checkGenerators] at hOk
      split_ifs at hOk with hLength
      cases hFirst :
          checkSources (List.replicate size false) first with
      | error error =>
          rw [hFirst] at hOk
          cases hOk
      | ok value =>
          rw [hFirst] at hOk
          intro generator hMem
          rcases List.mem_cons.mp hMem with rfl | hMem
          · refine ⟨not_not.mp hLength, fun source hSource => ?_⟩
            have hLt := checkSources_eq_ok hFirst source hSource
            rwa [List.length_replicate] at hLt
          · exact ih hOk generator hMem

/- What a validated graph says about one generator. -/
theorem generator_of_validate
    (hValid : graph.validate = .ok ())
    {movement : Nat}
    {generator : List Nat}
    (hGenerator : graph.generators[movement]? = some generator) :
    generator.length = graph.center.length ∧
      ∀ source ∈ generator, source < graph.center.length := by
  have hChecked :
      checkGenerators graph.center.length graph.generators =
        .ok () := by
    rw [validate] at hValid
    split_ifs at hValid <;> exact hValid
  exact
    checkGenerators_eq_ok hChecked generator
      (List.mem_of_getElem? hGenerator)

/-
  A source that passed was not seen before, so none is there
  twice.
-/
theorem nodup_of_checkSources
    {seen : List Bool}
    {sources : List Nat}
    (hOk : checkSources seen sources = .ok ()) :
    sources.Nodup ∧
      ∀ source ∈ sources, seen[source]? = some false := by
  induction sources generalizing seen with
  | nil => exact ⟨List.nodup_nil, fun _ hMem => nomatch hMem⟩
  | cons first sources ih =>
      rw [checkSources] at hOk
      cases hSeen : seen[first]? with
      | none =>
          rw [hSeen] at hOk
          cases hOk
      | some used =>
          rw [hSeen] at hOk
          cases used with
          | true => cases hOk
          | false =>
              rcases ih hOk with ⟨hNodup, hRest⟩
              have hUnseen : ∀ source ∈ sources,
                  first ≠ source ∧ seen[source]? = some false := by
                intro source hMem
                have hMarked := hRest source hMem
                by_cases hSame : first = source
                · subst hSame
                  rw [List.getElem?_set_self'] at hMarked
                  simp [hSeen] at hMarked
                · exact ⟨hSame,
                    List.getElem?_set_ne hSame ▸ hMarked⟩
              refine ⟨List.nodup_cons.mpr
                ⟨fun hMem => (hUnseen first hMem).1 rfl, hNodup⟩,
                fun source hMem => ?_⟩
              rcases List.mem_cons.mp hMem with rfl | hMem
              · exact hSeen
              · exact (hUnseen source hMem).2

/- So every generator is a permutation of the places. -/
theorem nodup_of_checkGenerators
    {size : Nat}
    {generators : List (List Nat)}
    (hOk : checkGenerators size generators = .ok ()) :
    ∀ generator ∈ generators, generator.Nodup := by
  induction generators with
  | nil => exact fun _ hMem => nomatch hMem
  | cons first generators ih =>
      rw [checkGenerators] at hOk
      split_ifs at hOk with hLength
      cases hFirst :
          checkSources (List.replicate size false) first with
      | error error =>
          rw [hFirst] at hOk
          cases hOk
      | ok value =>
          rw [hFirst] at hOk
          intro generator hMem
          rcases List.mem_cons.mp hMem with rfl | hMem
          · exact (nodup_of_checkSources hFirst).1
          · exact ih hOk generator hMem

/- The same of a validated graph. -/
theorem nodup_of_validate
    (hValid : graph.validate = .ok ())
    {generator : List Nat}
    (hMem : generator ∈ graph.generators) :
    generator.Nodup := by
  have hChecked :
      checkGenerators graph.center.length graph.generators =
        .ok () := by
    rw [validate] at hValid
    split_ifs at hValid <;> exact hValid
  exact nodup_of_checkGenerators hChecked generator hMem

/- A start is only checked against a validated graph. -/
theorem validate_of_validateStart
    {start : List UInt8}
    (hStart : graph.validateStart start = .ok ()) :
    graph.validate = .ok () ∧
      start.length = graph.center.length := by
  rw [validateStart] at hStart
  cases hValid : graph.validate with
  | error error =>
      rw [hValid] at hStart
      cases hStart
  | ok value =>
      rw [hValid] at hStart
      change (if _ then _ else _) = _ at hStart
      split_ifs at hStart with hSorted
      have hSame := congrArg List.length (not_not.mp hSorted)
      rw [sorted, sorted, List.length_insertionSort,
        List.length_insertionSort] at hSame
      exact ⟨rfl, hSame⟩

/- A move of the code is a step of the graph. -/
theorem step_applyGenerator
    {generator : List Nat}
    {state : List UInt8}
    (hLength : generator.length = state.length)
    (hSources : ∀ source ∈ generator, source < state.length) :
    Step generator state (applyGenerator generator state) := by
  refine ⟨by rw [applyGenerator, List.length_map, hLength], ?_⟩
  intro i hi
  have hSource : generator[i]? = some generator[i] :=
    List.getElem?_eq_getElem (by omega)
  have hLt :=
    hSources generator[i] (List.getElem_mem (by omega))
  have hLabel : state[generator[i]]? = some state[generator[i]] :=
    List.getElem?_eq_getElem hLt
  refine ⟨generator[i], _, hSource, hLabel, ?_⟩
  rw [applyGenerator, List.getElem?_map, hSource,
    Option.map_some, List.getD_eq_getElem?_getD, hLabel,
    Option.getD_some]

/- A replay that ends at the centre is a path of the graph. -/
theorem replayMoves_eq_center
    (hValid : graph.validate = .ok ())
    {state : List UInt8}
    (hLength : state.length = graph.center.length)
    (hRun : graph.replayMoves state moves = .ok graph.center) :
    graph.Replays state moves := by
  induction moves generalizing state with
  | nil =>
      cases hRun
      exact Replays.done
  | cons movement moves ih =>
      rw [replayMoves] at hRun
      cases hGenerator : graph.generators[movement]? with
      | none =>
          rw [hGenerator] at hRun
          cases hRun
      | some generator =>
          rw [hGenerator] at hRun
          rcases generator_of_validate hValid hGenerator with
            ⟨hSize, hSources⟩
          have hStep : Step generator state
              (applyGenerator generator state) :=
            step_applyGenerator (hSize.trans hLength.symm)
              (by rw [hLength]; exact hSources)
          exact
            Replays.move state _ movement moves generator
              hGenerator hStep
              (ih (hStep.1.trans hLength) hRun)

/- A replay that ends in the center is a path to it. -/
theorem replay_eq_true
    {start : List UInt8}
    (hReplay : graph.replay start moves = .ok true) :
    graph.Replays start moves := by
  rw [replay] at hReplay
  cases hStart : graph.validateStart start with
  | error error =>
      rw [hStart] at hReplay
      cases hReplay
  | ok value =>
      rw [hStart] at hReplay
      rcases validate_of_validateStart hStart with
        ⟨hValid, hLength⟩
      cases hRun : graph.replayMoves start moves with
      | error error =>
          rw [hRun] at hReplay
          cases hReplay
      | ok state =>
          rw [hRun] at hReplay
          have hCenter : state = graph.center :=
            of_decide_eq_true (Except.ok.inj hReplay)
          exact
            replayMoves_eq_center hValid hLength
              (hCenter ▸ hRun)

/- The moves of a path are generators. -/
theorem Replays.generator_lt
    {state : List UInt8}
    (hReplays : graph.Replays state moves) :
    ∀ movement ∈ moves, movement < graph.generators.length := by
  induction hReplays with
  | done => exact fun _ hMem => nomatch hMem
  | move state next movement moves generator hGenerator _ _ ih =>
      intro other hMem
      rcases List.mem_cons.mp hMem with rfl | hMem
      · exact (List.getElem?_eq_some_iff.mp hGenerator).1
      · exact ih other hMem

/- A move fits a byte. -/
theorem generators_le_of_validate
    (hValid : graph.validate = .ok ()) :
    graph.generators.length ≤ 255 := by
  rw [validate] at hValid
  by_cases hGeometry :
      ¬ (1 ≤ graph.center.length ∧ graph.center.length ≤ 150) ∨
        ¬ (1 ≤ graph.generators.length ∧
          graph.generators.length ≤ 255)
  · rw [if_pos hGeometry] at hValid
    cases hValid
  · omega

/- A state has between 1 and 150 places. -/
theorem size_of_validate
    (hValid : graph.validate = .ok ()) :
    1 ≤ graph.center.length ∧ graph.center.length ≤ 150 := by
  rw [validate] at hValid
  by_cases hGeometry :
      ¬ (1 ≤ graph.center.length ∧ graph.center.length ≤ 150) ∨
        ¬ (1 ≤ graph.generators.length ∧
          graph.generators.length ≤ 255)
  · rw [if_pos hGeometry] at hValid
    cases hValid
  · omega

/- The moves of a path to the center are generators. -/
theorem lt_of_replay
    {start : List UInt8}
    (hReplay : graph.replay start moves = .ok true) :
    ∀ movement ∈ moves, movement < 255 := by
  intro movement hMem
  have hGenerator :=
    (replay_eq_true hReplay).generator_lt movement hMem
  rw [replay] at hReplay
  cases hStart : graph.validateStart start with
  | error error =>
      rw [hStart] at hReplay
      cases hReplay
  | ok value =>
      have hBound :=
        generators_le_of_validate
          (validate_of_validateStart hStart).1
      omega

end PermutationGraph

end BeamSearch
