import BeamSearch.Calibration.InferencePool
import BeamSearch.Lib.Hoare

/-
  An inference pool pairs every reply with its request.

  A process owes the lines it has still to print or to have
  received. Whatever happens around the pool, a debt only
  shrinks; asking adds one line to it, receiving takes the
  first one off. Between two calls no process owes anything.

  Main declarations:
    * `Child.tokens`, `Holds`
    * `tryReceive_triple`
    * `measure_triple`
    * `pool_pairs`
-/

namespace BeamSearch

open Hoare

namespace Calibration

namespace InferencePool

----------------
-- Lines A Process Owes
----------------

/- Where an answer comes from, if it is a line. -/
def originOf : Except String Line → Option Origin
  | .ok line => some line.origin
  | .error _ => none

/- Received, printed, promised: in the order of arrival. -/
def Child.tokens (rank : Nat) (child : Child) : List Origin :=
  child.channel.filterMap originOf ++
    (child.output.map Line.origin ++
      (child.first.toList ++
        (child.unanswered.map (.reply rank) ++
          child.inbox.map (.reply rank))))

/- Steps of a process and its reader pay debts or lose lines. -/
theorem Child.tokens_act
    (rank : Nat)
    (child : Child)
    (event : ChildEvent) :
    List.Sublist ((child.act rank event).tokens rank)
      (child.tokens rank) := by
  cases event with
  | begin value =>
      rw [Child.act]
      split
      · rename_i origin _ hFirst
        simp [Child.tokens, hFirst]
      · exact List.Sublist.refl _
  | take =>
      rw [Child.act]
      split
      · rename_i request inbox _ hInbox
        simp [Child.tokens, hInbox]
      · exact List.Sublist.refl _
  | answer value =>
      rw [Child.act]
      split
      · rename_i request unanswered _ hFirst hUnanswered
        simp [Child.tokens, hFirst, hUnanswered]
      · exact List.Sublist.refl _
  | deliver =>
      rw [Child.act]
      split
      · rename_i line output _ hOutput
        simp [Child.tokens, hOutput, originOf]
      · exact List.Sublist.refl _
  | lose =>
      rw [Child.act]
      split
      · rename_i line output _ hOutput
        simp only [Child.tokens, hOutput, List.map_cons]
        exact (List.Sublist.cons _ (List.Sublist.refl _)).append_left _
      · exact List.Sublist.refl _
  | fault text =>
      rw [Child.act]
      split
      · simp [Child.tokens, originOf]
      · exact List.Sublist.refl _
  | hangUp =>
      rw [Child.act]
      split
      · exact List.Sublist.refl _
      · exact List.Sublist.refl _
  | exit code => exact List.Sublist.refl _

----------------
-- The Pool And Its Debts
----------------

/- The ranks, the capacity a call found, and its number. -/
structure Frame where
  world : Nat
  cap : Nat
  call : Nat

/- What every stop leaves: the ranks, and no larger capacity. -/
structure Framed (frame : Frame) (pool : Pool) : Prop where
  length : pool.ranks.length = frame.world
  capacity : pool.capacity ≤ frame.cap
  call : pool.call = frame.call

/- No process owes more than its debt. -/
structure Holds
    (frame : Frame)
    (debt : Nat → List Origin)
    (pool : Pool) : Prop extends Framed frame pool where
  owes :
    ∀ rank child, pool.child? rank = some child →
      List.Sublist (child.tokens rank) (debt rank)

/- No child is left. -/
structure Cleared (frame : Frame) (pool : Pool) : Prop
    extends Framed frame pool where
  gone : ∀ rank, pool.child? rank = none

/- No rank owes a line. -/
def noDebt : Nat → List Origin :=
  fun _ => []

section Debts

variable {frame : Frame}
variable {debt debt' : Nat → List Origin}
variable {pool : Pool}

/- More may be owed than is. -/
theorem Holds.mono
    (hHolds : Holds frame debt pool)
    (hDebt : ∀ rank, List.Sublist (debt rank) (debt' rank)) :
    Holds frame debt' pool :=
  { hHolds with
    owes := fun rank child hChild =>
      (hHolds.owes rank child hChild).trans (hDebt rank) }

/- A pool without processes owes nothing. -/
theorem Cleared.holds
    (hCleared : Cleared frame pool)
    (debt : Nat → List Origin) :
    Holds frame debt pool :=
  { hCleared with
    owes := fun rank child hChild => by
      rw [hCleared.gone rank] at hChild
      cases hChild }

theorem child?_put
    (pool : Pool)
    (rank other : Nat)
    (child : Option Child) :
    (pool.put rank child).child? other =
      if rank = other ∧ rank < pool.ranks.length then child
      else pool.child? other := by
  rw [Pool.child?, Pool.put, Pool.child?, List.getElem?_set]
  by_cases hSame : rank = other
  · subst hSame
    by_cases hIn : rank < pool.ranks.length
    · simp [hIn]
    · simp [hIn]
  · simp [hSame]

theorem child?_lt
    {rank : Nat}
    {child : Child}
    (hChild : pool.child? rank = some child) :
    rank < pool.ranks.length := by
  by_contra hOut
  rw [Pool.child?, List.getElem?_eq_none (by omega)] at hChild
  cases hChild

/- Putting a child in its place keeps the frame. -/
theorem Framed.put
    (hFramed : Framed frame pool)
    (rank : Nat)
    (child : Option Child) :
    Framed frame (pool.put rank child) :=
  ⟨(List.length_set ..).trans hFramed.length, hFramed.capacity,
    hFramed.call⟩

/- Replace a process by one with another debt. -/
theorem Holds.put
    (hHolds : Holds frame debt pool)
    {rank : Nat}
    {child : Child}
    {owed : List Origin}
    (hOwed : List.Sublist (child.tokens rank) owed) :
    Holds frame (Function.update debt rank owed)
      (pool.put rank (some child)) := by
  refine { hHolds.toFramed.put rank _ with owes := ?_ }
  intro other present hChild
  rw [child?_put] at hChild
  by_cases hSame : rank = other
  · subst hSame
    rw [Function.update_self]
    split_ifs at hChild with hIn
    · rw [← Option.some.inj hChild]
      exact hOwed
    · exact absurd ⟨rfl, child?_lt hChild⟩ hIn
  · rw [Function.update_of_ne (Ne.symm hSame)]
    rw [if_neg fun hBoth => hSame hBoth.1] at hChild
    exact hHolds.owes other present hChild

/- A process that is let go of owes nothing. -/
theorem Holds.drop
    (hHolds : Holds frame debt pool)
    (rank : Nat) :
    Holds frame (Function.update debt rank [])
      (pool.put rank none) := by
  refine { hHolds.toFramed.put rank _ with owes := ?_ }
  intro other present hChild
  rw [child?_put] at hChild
  by_cases hSame : rank = other
  · subst hSame
    split_ifs at hChild with hIn
    exact absurd ⟨rfl, child?_lt hChild⟩ hIn
  · rw [Function.update_of_ne (Ne.symm hSame)]
    rw [if_neg fun hBoth => hSame hBoth.1] at hChild
    exact hHolds.owes other present hChild

/- A rank without a process owes nothing. -/
theorem Holds.absent
    (hHolds : Holds frame debt pool)
    {rank : Nat}
    (hNone : pool.child? rank = none) :
    Holds frame (Function.update debt rank []) pool := by
  refine { hHolds.toFramed with owes := ?_ }
  intro other child hChild
  by_cases hSame : other = rank
  · subst hSame
    rw [hNone] at hChild
    cases hChild
  · rw [Function.update_of_ne hSame]
    exact hHolds.owes other child hChild

theorem Framed.same
    (hFramed : Framed frame pool)
    {other : Pool}
    (hRanks : other.ranks = pool.ranks)
    (hCapacity : other.capacity = pool.capacity)
    (hCall : other.call = pool.call) :
    Framed frame other :=
  ⟨hRanks ▸ hFramed.length, hCapacity ▸ hFramed.capacity,
    hCall ▸ hFramed.call⟩

/- Time, cancellation and counters are nobody's debt. -/
theorem Holds.same
    (hHolds : Holds frame debt pool)
    {other : Pool}
    (hRanks : other.ranks = pool.ranks)
    (hCapacity : other.capacity = pool.capacity)
    (hCall : other.call = pool.call) :
    Holds frame debt other := by
  refine { hHolds.toFramed.same hRanks hCapacity hCall with
    owes := ?_ }
  intro rank child hChild
  rw [Pool.child?, hRanks] at hChild
  exact hHolds.owes rank child hChild

/- An event of a process answers nothing that was not asked. -/
theorem Holds.react
    (hHolds : Holds frame debt pool)
    (event : Event) :
    Holds frame debt (pool.react event) := by
  cases event with
  | child rank event =>
      rw [Pool.react]
      cases hChild : pool.child? rank with
      | none => exact hHolds
      | some child =>
          have hPut := hHolds.put
            ((child.tokens_act rank event).trans
              (hHolds.owes rank child hChild))
          rwa [Function.update_eq_self] at hPut
  | pass nanoseconds => exact hHolds.same rfl rfl rfl
  | cancel => exact hHolds.same rfl rfl rfl

/- Nor does any number of events. -/
theorem Holds.reacts
    (hHolds : Holds frame debt pool)
    (events : List Event) :
    Holds frame debt (events.foldl Pool.react pool) := by
  induction events generalizing pool with
  | nil => exact hHolds
  | cons event events ih => exact ih (hHolds.react event)

end Debts

/- The weakest debt a framed pool keeps. -/
def wholeDebt (pool : Pool) (rank : Nat) : List Origin :=
  ((pool.child? rank).map (Child.tokens rank)).getD []

/- Every pool in its frame owes at most all its lines. -/
theorem Framed.holds
    {frame : Frame}
    {pool : Pool}
    (hFramed : Framed frame pool) :
    Holds frame (wholeDebt pool) pool := by
  refine { hFramed with owes := ?_ }
  intro rank child hChild
  rw [wholeDebt, hChild]
  exact List.Sublist.refl _

----------------
-- Single Operations
----------------

section Operations

variable (env : Surroundings) (config : PoolConfig)
variable {frame : Frame}
variable {debt : Nat → List Origin}
variable {E : Stop → Pool → Prop}

theorem pause_triple :
    Triple (Holds frame debt) (pause env)
      (fun _ => Holds frame debt) E :=
  Triple.update fun _ hHolds =>
    (hHolds.reacts _).same rfl rfl rfl

/- A system call keeps the books, or stops the pool. -/
theorem system_triple :
    Triple (Holds frame debt) (system env)
      (fun _ => Holds frame debt)
      (fun _ => Framed frame) := by
  apply Triple.seq (pause_triple env)
  intro _
  apply Triple.read
  intro pool hHolds
  cases env.failing pool.step with
  | none => exact Triple.value fun _ hSame => hSame ▸ hHolds
  | some text => exact Triple.stop fun _ hSame =>
      hSame ▸ hHolds.toFramed

theorem modifyChild_triple
    {pool : Pool}
    {rank : Nat}
    {child : Option Child}
    {R : Pool → Prop}
    (hPut : R (pool.put rank child)) :
    Triple (fun other => other = pool) (modifyChild rank child)
      (fun _ => R) E := by
  rintro _ rfl
  exact hPut

/- A rank that is needed has its process. -/
theorem required_triple
    {pool : Pool}
    (hFramed : Framed frame pool)
    (rank : Nat) :
    Triple (fun other => other = pool) (required rank)
      (fun child other =>
        other = pool ∧ pool.child? rank = some child)
      (fun _ => Framed frame) := by
  apply Triple.read
  rintro _ rfl
  cases hChild : Pool.child? _ rank with
  | none => exact Triple.stop fun _ hSame => hSame ▸ hFramed
  | some child => exact Triple.value fun _ hSame => ⟨hSame, rfl⟩

theorem remaining_triple
    (deadline : Nat) :
    Triple (Holds frame debt) (remaining env deadline)
      (fun _ => Holds frame debt)
      (fun _ => Framed frame) := by
  apply Triple.seq (pause_triple env)
  intro _
  apply Triple.read
  intro pool hHolds
  apply Triple.branch
  · exact fun _ => Triple.stop fun _ hSame =>
      hSame ▸ hHolds.toFramed
  · intro _
    apply Triple.branch
    · exact fun _ => Triple.stop fun _ hSame =>
        hSame ▸ hHolds.toFramed
    · exact fun _ => Triple.value fun _ hSame => hSame ▸ hHolds

theorem exitCode_triple
    (rank : Nat) :
    Triple (Holds frame debt) (exitCode env rank)
      (fun _ => Holds frame debt)
      (fun _ => Framed frame) := by
  apply Triple.seq (system_triple env)
  intro _
  apply Triple.read
  intro pool hHolds
  exact Triple.value fun _ hSame => hSame ▸ hHolds

/- What is received is the first line that is owed. -/
def Taken
    (frame : Frame)
    (debt : Nat → List Origin)
    (rank : Nat) :
    Except String (Option Line) → Pool → Prop
  | .ok (some line), pool =>
      ∃ rest, List.Sublist (line.origin :: rest) (debt rank) ∧
        Holds frame (Function.update debt rank rest) pool
  | _, pool => Holds frame debt pool

/- A line taken from a rank is the first one it owes. -/
theorem tryReceive_triple
    (rank : Nat) :
    Triple (Holds frame debt) (tryReceive env rank)
      (Taken frame debt rank)
      (fun _ => Framed frame) := by
  apply Triple.seq (pause_triple env)
  intro _
  apply Triple.of_state
  intro pool hHolds
  apply Triple.seq (required_triple hHolds.toFramed rank)
  intro child
  apply Triple.of_state
  rintro _ ⟨rfl, hChild⟩
  apply Triple.read
  rintro _ rfl
  have hOwes := hHolds.owes rank child hChild
  apply Triple.branch
  · exact fun _ => Triple.value fun _ hSame => hSame ▸ hHolds
  intro _
  apply Triple.branch
  · exact fun _ => Triple.value fun _ hSame => hSame ▸ hHolds
  intro _
  cases hChannel : child.channel with
  | nil =>
      apply Triple.branch
      · exact fun _ => Triple.value fun _ hSame => hSame ▸ hHolds
      intro _
      apply Triple.branch
      · exact fun _ => Triple.value fun _ hSame => hSame ▸ hHolds
      · exact fun _ => Triple.value fun _ hSame => hSame ▸ hHolds
  | cons entry channel =>
      cases entry with
      | error text =>
          have hTokens :
              ({ child with channel := channel } : Child).tokens
                  rank = child.tokens rank := by
            simp [Child.tokens, hChannel, List.filterMap_cons,
              originOf]
          have hPut := hHolds.put (hTokens ▸ hOwes)
          rw [Function.update_eq_self] at hPut
          apply Triple.seq (modifyChild_triple hPut)
          exact fun _ => Triple.value fun _ hPut => hPut
      | ok line =>
          have hTokens :
              child.tokens rank =
                line.origin ::
                  ({ child with channel := channel } : Child).tokens
                    rank := by
            simp [Child.tokens, hChannel, originOf]
          have hPut :=
            hHolds.put
              (List.Sublist.refl
                (({ child with channel := channel } :
                  Child).tokens rank))
          apply Triple.seq (modifyChild_triple hPut)
          exact fun _ => Triple.value fun _ hPut =>
            ⟨_, hTokens ▸ hOwes, hPut⟩

----------------
-- Sending And Finishing
----------------

/- A request sent to an idle rank is the one line it owes. -/
theorem send_triple
    (rank : Nat)
    (request : Request) :
    Triple (Holds frame debt) (send env rank request)
      (fun sent pool =>
        match sent with
        | .ok () =>
            Holds frame
              (Function.update debt rank
                (debt rank ++ [.reply rank request])) pool
        | .error _ => Holds frame debt pool)
      (fun _ => Framed frame) := by
  apply Triple.seq (pause_triple env)
  intro _
  apply Triple.of_state
  intro pool hHolds
  apply Triple.seq (required_triple hHolds.toFramed rank)
  intro child
  apply Triple.of_state
  rintro _ ⟨rfl, hChild⟩
  apply Triple.read
  rintro _ rfl
  apply Triple.branch
  · exact fun _ => Triple.value fun _ hSame => hSame ▸ hHolds
  intro _
  apply Triple.branch
  · exact fun _ => Triple.value fun _ hSame => hSame ▸ hHolds
  intro _
  cases env.failing _ with
  | some text =>
      exact Triple.value fun _ hSame => hSame ▸ hHolds
  | none =>
      have hTokens :
          ({ child with inbox := child.inbox ++ [request] } :
              Child).tokens rank =
            child.tokens rank ++ [.reply rank request] := by
        simp [Child.tokens]
      have hOwed :=
        (hHolds.owes rank child hChild).append_right
          [.reply rank request]
      apply Triple.seq
        (modifyChild_triple (hHolds.put (hTokens ▸ hOwed)))
      exact fun _ => Triple.value fun _ hPut => hPut

/- Waiting for a process to end keeps the books. -/
theorem finishLoop_triple
    (rank deadline polls : Nat) :
    Triple (Holds frame debt)
      (finishLoop env rank deadline polls)
      (fun _ => Holds frame debt)
      (fun _ => Framed frame) := by
  induction polls with
  | zero => exact Triple.stop fun _ hHolds => hHolds.toFramed
  | succ polls ih =>
      apply Triple.seq (pause_triple env)
      intro _
      apply Triple.read
      intro pool hHolds
      apply Triple.seq (required_triple hHolds.toFramed rank)
      intro child
      apply Triple.pre (P := fun other => other = pool) ?_
        fun _ hBoth => hBoth.1
      have hSame : ∀ (result : Except String Unit),
          Triple (fun other => other = pool)
            (pure result : PoolM (Except String Unit))
            (fun _ => Holds frame debt)
            (fun _ => Framed frame) :=
        fun _ => Triple.value fun _ hSame => hSame ▸ hHolds
      apply Triple.branch
      · exact fun _ => hSame _
      intro _
      cases env.failing _ with
      | some text => exact hSame _
      | none =>
          cases child.exit with
          | some code =>
              apply Triple.branch
              · exact fun _ => hSame _
              · exact fun _ => hSame _
          | none =>
              apply Triple.branch
              · exact fun _ => hSame _
              · exact fun _ => ih.pre fun _ hSame => hSame ▸ hHolds

theorem awaitExit_triple
    (rank timeout : Nat) :
    Triple (Holds frame debt) (awaitExit env rank timeout)
      (fun _ => Holds frame debt)
      (fun _ => Framed frame) := by
  apply Triple.read
  intro pool hHolds
  apply Triple.seq (required_triple hHolds.toFramed rank)
  intro child
  apply Triple.branch
  · exact fun _ => Triple.value fun _ hSame => hSame.1 ▸ hHolds
  · exact fun _ => Triple.pre (finishLoop_triple env _ _ _)
      fun _ hSame => hSame.1 ▸ hHolds

/- Closing a child asks nothing of it. -/
theorem closeChild_triple
    (rank : Nat) :
    Triple (Holds frame debt) (closeChild env rank)
      (fun _ => Holds frame debt) E := by
  apply Triple.seq (pause_triple env)
  intro _
  apply Triple.read
  intro pool hHolds
  cases hChild : pool.child? rank with
  | none => exact Triple.value fun _ hSame => hSame ▸ hHolds
  | some child =>
      have hTokens :
          List.Sublist
            (({ child with closed := true } : Child).tokens rank)
            (debt rank) :=
        hHolds.owes rank child hChild
      have hPut := hHolds.put hTokens
      rw [Function.update_eq_self] at hPut
      apply Triple.seq (modifyChild_triple hPut)
      intro _
      cases env.failing _ with
      | some text => exact Triple.value fun _ hHolds => hHolds
      | none => exact Triple.value fun _ hHolds => hHolds

/- Finishing a rank keeps the books. -/
theorem finish_triple
    (rank timeout : Nat) :
    Triple (Holds frame debt) (finish env rank timeout)
      (fun _ => Holds frame debt)
      (fun _ => Framed frame) := by
  apply Triple.seq (pause_triple env)
  intro _
  apply Triple.seq (awaitExit_triple env rank timeout)
  intro result
  apply Triple.seq (closeChild_triple env rank)
  intro cleanup
  cases result with
  | error text => exact Triple.value fun _ hHolds => hHolds
  | ok done => exact Triple.value fun _ hHolds => hHolds

----------------
-- Letting Go
----------------

/- A process that is gone does not come back. -/
theorem child?_react
    {pool : Pool}
    {rank : Nat}
    (hGone : pool.child? rank = none)
    (event : Event) :
    (pool.react event).child? rank = none := by
  cases event with
  | child other event =>
      rw [Pool.react]
      cases hChild : pool.child? other with
      | none => exact hGone
      | some child =>
          have hNe : other ≠ rank := by
            rintro rfl
            rw [hGone] at hChild
            cases hChild
          rw [child?_put, if_neg fun hBoth => hNe hBoth.1]
          exact hGone
  | pass nanoseconds => exact hGone
  | cancel => exact hGone

theorem child?_reacts
    {pool : Pool}
    {rank : Nat}
    (hGone : pool.child? rank = none)
    (events : List Event) :
    (events.foldl Pool.react pool).child? rank = none := by
  induction events generalizing pool with
  | nil => exact hGone
  | cons event events ih => exact ih (child?_react hGone event)

/- Only these ranks may still have a process. -/
structure Within (frame : Frame) (ranks : List Nat) (pool : Pool) :
    Prop extends Framed frame pool where
  gone : ∀ rank, rank ∉ ranks → pool.child? rank = none

/- Clearing takes the ranks one by one. -/
theorem clearRanks_triple
    (ranks : List Nat)
    (error : Option String) :
    Triple (Within frame ranks) (clearRanks env ranks error)
      (fun _ => Cleared frame) E := by
  induction ranks generalizing error with
  | nil =>
      exact Triple.value fun _ hWithin =>
        { hWithin.toFramed with
          gone := fun rank => hWithin.gone rank List.not_mem_nil }
  | cons rank ranks ih =>
      refine Triple.seq (R := fun _ =>
        Within frame (rank :: ranks)) ?_ ?_
      · refine Triple.update fun pool hWithin => ?_
        refine { (hWithin.toFramed.holds.reacts _).toFramed.same
          rfl rfl rfl with gone := fun other hOut => ?_ }
        exact child?_reacts (hWithin.gone other hOut) _
      intro _
      apply Triple.read
      intro pool hWithin
      cases hChild : pool.child? rank with
      | none =>
          refine (ih error).pre ?_
          rintro _ rfl
          refine { hWithin.toFramed with gone := fun other hOut => ?_ }
          by_cases hSame : other = rank
          · rw [hSame]
            exact hChild
          · exact hWithin.gone other (by simp [hSame, hOut])
      | some child =>
          refine Triple.seq (modifyChild_triple
            (R := Within frame ranks) ?_) fun _ => ih _
          refine { hWithin.toFramed.put rank none with
            gone := fun other hOut => ?_ }
          rw [child?_put]
          split_ifs with hSame
          · rfl
          · by_cases hRank : other = rank
            · subst hRank
              exact absurd ⟨rfl, child?_lt hChild⟩ hSame
            · exact hWithin.gone other (by simp [hRank, hOut])

/- Clearing takes every process away. -/
theorem clear_triple :
    Triple (Framed frame) (clear env)
      (fun _ => Cleared frame) (fun _ => Cleared frame) := by
  apply Triple.read
  intro pool hFramed
  have hWithin :
      Within frame (List.range pool.ranks.length) pool := by
    refine { hFramed with gone := fun rank hOut => ?_ }
    rw [List.mem_range, Nat.not_lt] at hOut
    rw [Pool.child?, List.getElem?_eq_none hOut]
    rfl
  refine Triple.seq (R := fun _ => Cleared frame)
    (Triple.pre (clearRanks_triple env _ none)
      fun _ hSame => hSame ▸ hWithin) ?_
  · intro error
    cases error with
    | none => exact Triple.value fun _ hCleared => hCleared
    | some text => exact Triple.stop fun _ hCleared => hCleared

/- Reading a log keeps what a pause keeps. -/
theorem readLog_triple
    {P : Pool → Prop}
    (hPause : Triple P (pause env) (fun _ => P) E)
    (log : String) :
    Triple P (readLog env log) (fun _ => P) E := by
  apply Triple.seq hPause
  intro _
  apply Triple.read
  intro pool hP
  exact Triple.value fun _ hSame => hSame ▸ hP

/- A failed rank has no process, and so no debt. -/
theorem failedRank_triple
    (rank : Nat)
    (error : String)
    (allowCapacity : Bool) :
    Triple (Holds frame debt)
      (failedRank env rank error allowCapacity)
      (fun failure pool =>
        failure.rank = rank ∧
          Holds frame (Function.update debt rank []) pool)
      E := by
  apply Triple.seq (pause_triple env)
  intro _
  apply Triple.read
  intro pool hHolds
  cases hChild : pool.child? rank with
  | none =>
      exact Triple.value fun _ hSame =>
        ⟨rfl, hSame ▸ hHolds.absent hChild⟩
  | some child =>
      apply Triple.seq (modifyChild_triple (hHolds.drop rank))
      intro _
      apply Triple.seq (readLog_triple env (pause_triple env) _)
      exact fun _ => Triple.value fun _ hDropped => ⟨rfl, hDropped⟩

end Operations

----------------
-- Starting
----------------

/- The debts of some ranks, each a line of its own. -/
def owing
    (line : Nat → Origin)
    (ranks : List Nat)
    (debt : Nat → List Origin)
    (rank : Nat) : List Origin :=
  if rank ∈ ranks then [line rank] else debt rank

theorem update_nil_sublist
    (debt : Nat → List Origin)
    (rank other : Nat) :
    List.Sublist (Function.update debt rank [] other)
      (debt other) := by
  by_cases hSame : other = rank
  · subst hSame
    rw [Function.update_self]
    exact List.nil_sublist _
  · rw [Function.update_of_ne hSame]

theorem owing_cons_sublist
    (line : Nat → Origin)
    (rank : Nat)
    (ranks : List Nat)
    (debt : Nat → List Origin)
    (other : Nat) :
    List.Sublist
      (owing line ranks (Function.update debt rank [line rank])
        other)
      (owing line (rank :: ranks) debt other) := by
  rw [owing, owing]
  by_cases hSame : other = rank
  · subst hSame
    rw [Function.update_self, ite_self, if_pos List.mem_cons_self]
  · rw [Function.update_of_ne hSame]
    simp only [List.mem_cons, hSame, false_or]
    exact List.Sublist.refl _

section Calls

variable (env : Surroundings) (config : PoolConfig)
variable {frame : Frame}
variable {debt : Nat → List Origin}
variable {E : Stop → Pool → Prop}

/- A retired rank owes nothing more than before. -/
theorem retire_triple
    (rank : Nat) :
    Triple (Holds frame debt) (retire env rank)
      (fun _ => Holds frame debt)
      (fun _ => Framed frame) := by
  apply Triple.read
  intro pool hHolds
  cases pool.child? rank with
  | none => exact Triple.value fun _ hSame => hSame ▸ hHolds
  | some child =>
      apply Triple.seq
        (Triple.pre (exitCode_triple env rank)
          fun _ hSame => hSame ▸ hHolds)
      intro code
      cases code with
      | none => exact Triple.value fun _ hHolds => hHolds
      | some code =>
          exact Triple.update fun _ hHolds =>
            (hHolds.drop rank).mono (update_nil_sublist debt rank)

/- A launched rank owes its first line. -/
theorem launch_triple
    (request : Request)
    (rank left : Nat) :
    Triple (Holds frame debt)
      (launch env config request rank left)
      (fun _ =>
        Holds frame
          (Function.update debt rank
            [firstLine config rank request]))
      (fun _ => Framed frame) := by
  apply Triple.read
  intro pool hHolds
  apply Triple.branch
  · exact fun _ => Triple.stop fun _ hSame =>
      hSame ▸ hHolds.toFramed
  intro _
  apply Triple.write
  have hCounted :
      Holds frame debt { pool with starts := pool.starts + 1 } :=
    hHolds.same rfl rfl rfl
  refine Triple.seq (R := fun _ => Holds frame debt) ?_ ?_
  · refine Triple.pre (system_triple env) ?_
    rintro _ rfl
    exact hCounted
  intro _
  apply Triple.read
  intro pool hHolds
  exact modifyChild_triple
    (hHolds.put (List.Sublist.refl [firstLine config rank request]))

/- A rank is started only where none runs. -/
theorem startRank_triple
    (request : Request)
    (deadline rank : Nat) :
    Triple (Holds frame debt)
      (startRank env config request deadline rank)
      (fun started =>
        Holds frame
          (if started then
            Function.update debt rank
              [firstLine config rank request]
          else debt))
      (fun _ => Framed frame) := by
  apply Triple.seq (retire_triple env rank)
  intro _
  apply Triple.read
  intro pool hHolds
  apply Triple.branch
  · exact fun _ => Triple.value fun _ hSame => hSame ▸ hHolds
  intro _
  apply Triple.seq
    (Triple.pre (remaining_triple env deadline)
      fun _ hSame => hSame ▸ hHolds)
  intro _
  apply Triple.read
  intro pool hHolds
  apply Triple.seq
    (Triple.pre (remaining_triple env pool.deadline)
      fun _ hSame => hSame ▸ hHolds)
  intro left
  apply Triple.seq (launch_triple env config request rank left)
  exact fun _ => Triple.value fun _ hHolds => hHolds

/- The ranks that were started owe their first lines. -/
theorem start_triple
    (request : Request)
    (deadline : Nat)
    (ranks : List Nat) :
    Triple (Holds frame debt)
      (start env config request deadline ranks)
      (fun starting pool =>
        List.Sublist starting ranks ∧
          Holds frame
            (owing (fun rank => firstLine config rank request)
              starting debt) pool)
      (fun _ => Framed frame) := by
  induction ranks generalizing debt with
  | nil =>
      refine Triple.value fun _ hHolds => ⟨List.Sublist.refl _, ?_⟩
      exact hHolds.mono fun rank => by simp [owing]
  | cons rank ranks ih =>
      apply Triple.seq
        (startRank_triple env config request deadline rank)
      intro started
      apply Triple.seq ih
      intro starting
      apply Triple.value
      rintro pool ⟨hSub, hHolds⟩
      cases started with
      | true =>
          exact ⟨hSub.cons_cons rank,
            hHolds.mono (owing_cons_sublist _ rank starting debt)⟩
      | false => exact ⟨hSub.cons rank, hHolds⟩

----------------
-- Readiness
----------------

/- A rejection tells of one rank, and of no row. -/
structure Rejected (world : Nat) (batch : Batch) : Prop where
  rows : batch.rows = []
  failures :
    ∃ failure, batch.failures = [failure] ∧
      failure.capacity = true ∧ failure.rank < world

/- What is left to pay when some ranks paid in full. -/
def paid
    (ranks : List Nat)
    (debt : Nat → List Origin)
    (rank : Nat) : List Origin :=
  if rank ∈ ranks then [] else debt rank

theorem paid_cons_sublist
    (rank : Nat)
    (ranks : List Nat)
    (debt : Nat → List Origin)
    (other : Nat) :
    List.Sublist
      (paid ranks (Function.update debt rank []) other)
      (paid (rank :: ranks) debt other) := by
  rw [paid, paid]
  by_cases hSame : other = rank
  · subst hSame
    rw [Function.update_self, ite_self, if_pos List.mem_cons_self]
  · rw [Function.update_of_ne hSame]
    simp only [List.mem_cons, hSame, false_or]
    exact List.Sublist.refl _

/- A rank that owes one line gives that line. -/
theorem taken_of_one
    {pool : Pool}
    {rank : Nat}
    {origin : Origin}
    {line : Line}
    (hDebt : List.Sublist (debt rank) [origin])
    (hTaken : Taken frame debt rank (.ok (some line)) pool) :
    line.origin = origin ∧
      Holds frame (Function.update debt rank []) pool := by
  rcases hTaken with ⟨rest, hFirst, hHolds⟩
  have hOne := hFirst.trans hDebt
  have hRest : rest = [] :=
    List.eq_nil_of_length_eq_zero (by
      have hLength := hOne.length_le
      simp only [List.length_cons, List.length_nil] at hLength
      omega)
  subst hRest
  exact ⟨List.mem_singleton.mp (hOne.subset List.mem_cons_self),
    hHolds⟩

/- One pass over the ranks takes the first lines that came. -/
theorem readinessPass_triple
    (batch : Nat)
    {pending : List Nat}
    (hNodup : pending.Nodup)
    (hRanks : ∀ rank ∈ pending, rank < frame.world)
    (hDebt : ∀ rank ∈ pending,
      List.Sublist (debt rank) [.ready rank]) :
    Triple (Holds frame debt)
      (readinessPass env batch pending)
      (fun result pool =>
        match result with
        | .ok complete =>
            List.Sublist complete pending ∧
              Holds frame (paid complete debt) pool
        | .error rejected =>
            Rejected frame.world rejected ∧ Cleared frame pool)
      (fun _ => Framed frame) := by
  induction pending generalizing debt with
  | nil =>
      refine Triple.value fun _ hHolds => ⟨List.Sublist.refl _, ?_⟩
      exact hHolds.mono fun rank => by simp [paid]
  | cons rank pending ih =>
      rcases List.nodup_cons.mp hNodup with ⟨hNew, hRest⟩
      have hLater : ∀ other ∈ pending, other < frame.world :=
        fun other hMem => hRanks other (List.mem_cons_of_mem _ hMem)
      have hOwed : ∀ other ∈ pending,
          List.Sublist (debt other) [.ready other] :=
        fun other hMem => hDebt other (List.mem_cons_of_mem _ hMem)
      apply Triple.of_state
      intro pool hHolds
      apply Triple.seq (required_triple hHolds.toFramed rank)
      intro child
      apply Triple.seq
        (Triple.pre (tryReceive_triple env rank)
          fun _ hSame => hSame.1 ▸ hHolds)
      intro received
      cases received with
      | error error =>
          apply Triple.seq
            (readLog_triple env (pause_triple env) child.log)
          intro text
          apply Triple.branch
          · exact fun _ => Triple.stop fun _ hHolds =>
              hHolds.toFramed
          intro _
          refine Triple.seq (R := fun _ => Framed frame) ?_ ?_
          · refine Triple.update fun pool hHolds => ?_
            exact ⟨hHolds.length,
              (Nat.min_le_left _ _).trans hHolds.capacity,
              hHolds.call⟩
          intro _
          refine Triple.seq ((clear_triple env).stop_mono
            fun _ _ hCleared => hCleared.toFramed) ?_
          exact fun _ => Triple.value fun _ hCleared =>
            ⟨⟨rfl, _, rfl, rfl, hRanks rank List.mem_cons_self⟩,
              hCleared⟩
      | ok line =>
          cases line with
          | none =>
              refine Triple.conseq (ih hRest hLater hOwed)
                (fun _ hHolds => hHolds) ?_ fun _ _ hStop => hStop
              intro result pool hPass
              cases result with
              | error rejected => exact hPass
              | ok complete => exact ⟨hPass.1.cons rank, hPass.2⟩
          | some line =>
              apply Triple.branch
              · intro _
                apply Triple.of_state
                intro pool hTaken
                have hPaid := (taken_of_one
                  (hDebt rank List.mem_cons_self) hTaken).2
                have hOthers : ∀ other ∈ pending,
                    List.Sublist
                      (Function.update debt rank [] other)
                      [.ready other] :=
                  fun other hMem =>
                    (update_nil_sublist debt rank other).trans
                      (hOwed other hMem)
                have hPass :
                    Triple (fun other => other = pool)
                      (readinessPass env batch pending) _ _ :=
                  Triple.pre (ih hRest hLater hOthers)
                    fun _ hSame => hSame ▸ hPaid
                apply Triple.seq hPass
                intro result
                apply Triple.value
                intro pool hPass
                cases result with
                | error rejected => exact hPass
                | ok complete =>
                    exact ⟨hPass.1.cons_cons rank,
                      hPass.2.mono
                        (paid_cons_sublist rank complete debt)⟩
              · intro _
                refine Triple.stop fun pool hTaken => ?_
                exact (taken_of_one
                  (hDebt rank List.mem_cons_self)
                    hTaken).2.toFramed

theorem paid_filter
    (line : Nat → Origin)
    (complete pending : List Nat)
    (rank : Nat) :
    List.Sublist (paid complete (owing line pending noDebt) rank)
      (owing line
        (pending.filter fun rank => !complete.contains rank)
        noDebt rank) := by
  rw [paid, owing, owing]
  by_cases hComplete : rank ∈ complete
  · rw [if_pos hComplete]
    exact List.nil_sublist _
  · rw [if_neg hComplete]
    by_cases hPending : rank ∈ pending
    · rw [if_pos hPending, if_pos (by simp [hPending, hComplete])]
    · rw [if_neg hPending]
      exact List.nil_sublist _

/- Readiness ends when every started rank has spoken. -/
theorem readiness_triple
    (batch deadline polls : Nat)
    {pending : List Nat}
    (hNodup : pending.Nodup)
    (hRanks : ∀ rank ∈ pending, rank < frame.world) :
    Triple (Holds frame (owing .ready pending noDebt))
      (readiness env batch deadline polls pending)
      (fun result pool =>
        match result with
        | none => Holds frame noDebt pool
        | some rejected =>
            Rejected frame.world rejected ∧ Cleared frame pool)
      (fun _ => Framed frame) := by
  induction polls generalizing pending with
  | zero =>
      cases pending with
      | nil =>
          refine Triple.value fun _ hHolds => ?_
          exact hHolds.mono fun rank => by simp [owing]
      | cons rank pending =>
          exact Triple.stop fun _ hHolds => hHolds.toFramed
  | succ polls ih =>
      cases hPending : pending with
      | nil =>
          refine Triple.value fun _ hHolds => ?_
          exact hHolds.mono fun rank => by simp [owing]
      | cons first others =>
          rw [readiness, ← hPending]
          swap
          · exact List.cons_ne_nil first others
          apply Triple.seq (remaining_triple env deadline)
          intro _
          apply Triple.seq
            (readinessPass_triple env batch hNodup hRanks
              fun rank hMem => by simp [owing, hMem])
          intro result
          cases result with
          | error rejected =>
              exact Triple.value fun _ hPass => hPass
          | ok complete =>
              refine Triple.seq (R := fun _ =>
                Holds frame
                  (owing .ready
                    (pending.filter fun rank =>
                      !complete.contains rank) noDebt)) ?_ ?_
              · refine Triple.pre (pause_triple env) ?_
                rintro pool ⟨-, hHolds⟩
                exact hHolds.mono
                  (paid_filter .ready complete pending)
              · intro _
                exact ih (hNodup.filter _) fun rank hMem =>
                  hRanks rank (List.mem_filter.mp hMem).1

----------------
-- Requests
----------------

/- What a process owes when it is about to be asked. -/
def beforeAsked
    (config : PoolConfig)
    (request : Request)
    (rank : Nat) : List Origin :=
  match config.protocol with
  | .session => []
  | .oneshot => [.reply rank request]

/- An asked rank owes the reply to this request. -/
theorem ask_triple
    {rank : Nat}
    {request : Request}
    (hDebt : List.Sublist (debt rank)
      (beforeAsked config request rank)) :
    Triple (Holds frame debt) (ask env config rank request)
      (fun sent pool =>
        match sent with
        | .ok () =>
            Holds frame
              (Function.update debt rank [.reply rank request]) pool
        | .error _ => Holds frame debt pool)
      (fun _ => Framed frame) := by
  rw [ask]
  rw [beforeAsked] at hDebt
  cases hProtocol : config.protocol with
  | session =>
      rw [hProtocol] at hDebt
      have hNone : debt rank = [] := List.sublist_nil.mp hDebt
      have hSend :
          Triple (Holds frame debt) (send env rank request) _
            fun _ => Framed frame :=
        send_triple env rank request
      rw [hNone] at hSend
      exact hSend
  | oneshot =>
      rw [hProtocol] at hDebt
      refine Triple.value fun pool hHolds => hHolds.mono ?_
      intro other
      by_cases hSame : other = rank
      · subst hSame
        rw [Function.update_self]
        exact hDebt
      · rw [Function.update_of_ne hSame]

/- Each rank is asked, or failed and owes nothing. -/
theorem sendAll_triple
    {request : Request}
    {ranks : List Nat}
    (hNodup : ranks.Nodup)
    (hDebt : ∀ rank ∈ ranks,
      List.Sublist (debt rank) (beforeAsked config request rank)) :
    Triple (Holds frame debt)
      (sendAll env config request ranks)
      (fun sent pool =>
        List.Sublist sent.1 ranks ∧
          List.Perm (sent.1 ++ sent.2.map RankFailure.rank) ranks ∧
          Holds frame
            (owing (fun rank => .reply rank request) sent.1
              (paid ranks debt)) pool)
      (fun _ => Framed frame) := by
  induction ranks generalizing debt with
  | nil =>
      refine Triple.value fun _ hHolds =>
        ⟨List.Sublist.refl _, List.Perm.refl _, ?_⟩
      exact hHolds.mono fun rank => by simp [owing, paid]
  | cons rank ranks ih =>
      rcases List.nodup_cons.mp hNodup with ⟨hNew, hRest⟩
      have hLater : ∀ owed, ∀ other ∈ ranks,
          List.Sublist (Function.update debt rank owed other)
            (beforeAsked config request other) := by
        intro owed other hMem
        have hNe : other ≠ rank := fun hSame => hNew (hSame ▸ hMem)
        rw [Function.update_of_ne hNe]
        exact hDebt other (List.mem_cons_of_mem _ hMem)
      apply Triple.of_state
      intro pool hHolds
      apply Triple.seq (required_triple hHolds.toFramed rank)
      intro child
      apply Triple.seq
        (Triple.pre
          (ask_triple env config (hDebt rank List.mem_cons_self))
          fun _ hSame => hSame.1 ▸ hHolds)
      intro sent
      cases sent with
      | ok done =>
          apply Triple.seq (ih hRest (hLater _))
          rintro ⟨pending, failures⟩
          apply Triple.value
          rintro pool ⟨hSub, hPerm, hAsked⟩
          refine ⟨hSub.cons_cons rank, hPerm.cons rank,
            hAsked.mono fun other => ?_⟩
          by_cases hSame : other = rank
          · subst hSame
            have hNot : other ∉ pending :=
              fun hMem => hNew (hSub.subset hMem)
            rw [owing, if_neg hNot, paid, if_neg hNew,
              Function.update_self, owing,
              if_pos List.mem_cons_self]
          · simp only [owing, paid, List.mem_cons, hSame, false_or,
              Function.update_of_ne hSame, List.Sublist.refl]
      | error error =>
          apply Triple.seq (failedRank_triple env rank error true)
          intro failure
          apply Triple.of_state
          rintro pool ⟨hRank, hFailed⟩
          have hOthers :
              Triple (fun other => other = pool)
                (sendAll env config request ranks) _ _ :=
            Triple.pre (ih hRest (hLater []))
              fun _ hSame => hSame ▸ hFailed
          apply Triple.seq hOthers
          rintro ⟨pending, failures⟩
          apply Triple.value
          rintro pool ⟨hSub, hPerm, hAsked⟩
          refine ⟨hSub.cons rank, ?_, hAsked.mono fun other => ?_⟩
          · rw [List.map_cons, hRank]
            exact List.perm_middle.trans (hPerm.cons rank)
          · by_cases hSame : other = rank
            · subst hSame
              have hNot : other ∉ pending :=
                fun hMem => hNew (hSub.subset hMem)
              rw [owing, if_neg hNot, paid, if_neg hNew,
                Function.update_self]
              exact List.nil_sublist _
            · simp only [owing, paid, List.mem_cons, hSame, false_or,
                Function.update_of_ne hSame, List.Sublist.refl]

----------------
-- Replies
----------------

/- A reply that is accepted has passed its check. -/
theorem acceptReply_triple
    (deadline rank : Nat)
    (checked : Except String Unit) :
    Triple (Holds frame debt)
      (acceptReply env config deadline rank checked)
      (fun accepted pool =>
        (accepted = .ok () → checked = .ok ()) ∧
          Holds frame debt pool)
      (fun _ => Framed frame) := by
  rw [acceptReply]
  cases config.protocol with
  | oneshot =>
      apply Triple.seq (pause_triple env)
      intro _
      apply Triple.read
      intro pool hHolds
      apply Triple.seq
        (Triple.pre (finish_triple env rank (deadline - pool.now))
          fun _ hSame => hSame ▸ hHolds)
      intro finished
      cases finished with
      | error error =>
          exact Triple.value fun _ hHolds =>
            ⟨fun hOk => (nomatch hOk), hHolds⟩
      | ok done =>
          exact Triple.value fun _ hHolds =>
            ⟨fun hOk => hOk, hHolds⟩
  | session =>
      apply Triple.seq (exitCode_triple env rank)
      intro code
      apply Triple.branch
      · exact fun _ => Triple.value fun _ hHolds =>
          ⟨fun hOk => (nomatch hOk), hHolds⟩
      · exact fun _ => Triple.value fun _ hHolds =>
          ⟨fun hOk => hOk, hHolds⟩

/- A valid receipt names the device of its rank. -/
theorem device_of_validateReceipt
    {row : Line}
    {rank batch parents : Nat}
    (hValid :
      validateReceipt row.value rank batch parents = .ok ()) :
    row.device = some rank := by
  rw [validateReceipt] at hValid
  split at hValid
  · cases hValid
  · split at hValid
    · cases hValid
    · rename_i hChecks
      exact Decidable.not_not.mp fun hNot =>
        hChecks (.inr (.inr (.inl hNot)))

/- Each rank is in one row or one failure, and every row is the
reply of the rank it names. -/
structure Account
    (request : Request)
    (ranks : List Nat)
    (rows : List Line)
    (failures : List RankFailure) : Prop where
  once :
    List.Perm
      (rows.map Line.device ++
        failures.map fun failure => some failure.rank)
      (ranks.map some)
  replies :
    ∀ row ∈ rows, ∃ rank,
      row.device = some rank ∧ row.origin = .reply rank request

namespace Account

variable {request : Request}
variable {ranks : List Nat}
variable {rows : List Line}
variable {failures : List RankFailure}

/- A rank answered with its own reply. -/
theorem row
    (hAccount : Account request ranks rows failures)
    {rank : Nat}
    {line : Line}
    (hDevice : line.device = some rank)
    (hReply : line.origin = .reply rank request) :
    Account request (rank :: ranks) (line :: rows) failures where
  once := by
    rw [List.map_cons, List.map_cons, hDevice]
    exact hAccount.once.cons (some rank)
  replies := by
    intro other hMem
    rcases List.mem_cons.mp hMem with rfl | hMem
    · exact ⟨rank, hDevice, hReply⟩
    · exact hAccount.replies other hMem

/- A rank failed and gave no row. -/
theorem failure
    (hAccount : Account request ranks rows failures)
    (failed : RankFailure) :
    Account request (failed.rank :: ranks) rows
      (failed :: failures) where
  once := by
    rw [List.map_cons, List.map_cons]
    exact List.perm_middle.trans
      (hAccount.once.cons (some failed.rank))
  replies := hAccount.replies

/- Accounts of different ranks add up. -/
theorem append
    (hAccount : Account request ranks rows failures)
    {ranks' : List Nat}
    {rows' : List Line}
    {failures' : List RankFailure}
    (hLater : Account request ranks' rows' failures') :
    Account request (ranks ++ ranks') (rows ++ rows')
      (failures ++ failures') where
  once := by
    rw [List.map_append, List.map_append, List.map_append]
    refine List.Perm.trans ?_ (hAccount.once.append hLater.once)
    rw [List.append_assoc, List.append_assoc]
    refine List.Perm.append_left _ ?_
    rw [← List.append_assoc, ← List.append_assoc]
    exact List.Perm.append_right _ List.perm_append_comm
  replies := by
    intro row hMem
    rcases List.mem_append.mp hMem with hMem | hMem
    · exact hAccount.replies row hMem
    · exact hLater.replies row hMem

theorem perm
    (hAccount : Account request ranks rows failures)
    {ranks' : List Nat}
    (hPerm : List.Perm ranks ranks') :
    Account request ranks' rows failures :=
  ⟨hAccount.once.trans (hPerm.map some), hAccount.replies⟩

end Account

/- One pass takes the replies that came. -/
theorem receivePass_triple
    (request : Request)
    (deadline : Nat)
    {pending : List Nat}
    (hNodup : pending.Nodup)
    (hDebt : ∀ rank ∈ pending,
      List.Sublist (debt rank) [.reply rank request]) :
    Triple (Holds frame debt)
      (receivePass env config request deadline pending)
      (fun received pool =>
        List.Sublist received.complete pending ∧
          Account request received.complete received.rows
            received.failures ∧
          Holds frame (paid received.complete debt) pool)
      (fun _ => Framed frame) := by
  induction pending generalizing debt with
  | nil =>
      refine Triple.value fun _ hHolds =>
        ⟨List.Sublist.refl _, ⟨List.Perm.refl _, ?_⟩, ?_⟩
      · intro row hMem
        cases hMem
      · exact hHolds.mono fun rank => by simp [paid]
  | cons rank pending ih =>
      rcases List.nodup_cons.mp hNodup with ⟨hNew, hRest⟩
      have hOwed : ∀ other ∈ pending,
          List.Sublist (debt other) [.reply other request] :=
        fun other hMem => hDebt other (List.mem_cons_of_mem _ hMem)
      have hOthers : ∀ other ∈ pending,
          List.Sublist (Function.update debt rank [] other)
            [.reply other request] :=
        fun other hMem =>
          (update_nil_sublist debt rank other).trans
            (hOwed other hMem)
      -- A rank that fails is done with, whatever it owed.
      have hFailed : ∀ debt' : Nat → List Origin,
          (∀ other, List.Sublist
            (Function.update debt' rank [] other)
            (Function.update debt rank [] other)) →
          ∀ error allowed,
          Triple (Holds frame debt')
            (do
              let failure ← failedRank env rank error allowed
              let others ←
                receivePass env config request deadline pending
              pure
                ({ complete := rank :: others.complete
                   rows := others.rows
                   failures := failure :: others.failures } :
                  Received))
            (fun received pool =>
              List.Sublist received.complete (rank :: pending) ∧
                Account request received.complete received.rows
                  received.failures ∧
                Holds frame (paid received.complete debt) pool)
            (fun _ => Framed frame) := by
        intro debt' hLess error allowed
        apply Triple.seq (failedRank_triple env rank error allowed)
        intro failure
        apply Triple.of_state
        rintro pool ⟨hRank, hDropped⟩
        have hRun :
            Triple (fun other => other = pool)
              (receivePass env config request deadline pending)
              _ _ :=
          Triple.pre (ih hRest hOthers)
            fun _ hSame => hSame ▸ hDropped.mono hLess
        apply Triple.seq hRun
        intro others
        apply Triple.value
        rintro pool ⟨hSub, hAccount, hHolds⟩
        refine ⟨hSub.cons_cons rank, ?_,
          hHolds.mono (paid_cons_sublist rank _ debt)⟩
        rw [← hRank]
        exact hAccount.failure failure
      apply Triple.seq (tryReceive_triple env rank)
      intro received
      cases received with
      | error error =>
          exact hFailed debt (fun _ => List.Sublist.refl _) error true
      | ok line =>
          cases line with
          | none =>
              refine (ih hRest hOwed).post ?_
              rintro received pool ⟨hSub, hAccount, hHolds⟩
              exact ⟨hSub.cons rank, hAccount, hHolds⟩
          | some row =>
              apply Triple.of_state
              intro pool hTaken
              rcases taken_of_one (hDebt rank List.mem_cons_self)
                hTaken with ⟨hReply, hPaid⟩
              have hAccept :
                  Triple (fun other => other = pool)
                    (acceptReply env config deadline rank
                      (validateReceipt row.value rank request.batch
                        request.parents)) _ _ :=
                Triple.pre
                  (acceptReply_triple env config deadline rank _)
                  fun _ hSame => hSame ▸ hPaid
              apply Triple.seq hAccept
              intro accepted
              cases accepted with
              | error error =>
                  refine Triple.pre (hFailed
                    (Function.update debt rank [])
                      (fun other => ?_) error _)
                    fun _ hBoth => hBoth.2
                  rw [Function.update_idem]
              | ok done =>
                  apply Triple.of_state
                  rintro pool ⟨hChecked, hHolds⟩
                  have hRun :
                      Triple (fun other => other = pool)
                        (receivePass env config request deadline
                          pending) _ _ :=
                    Triple.pre (ih hRest hOthers)
                      fun _ hSame => hSame ▸ hHolds
                  apply Triple.seq hRun
                  intro others
                  apply Triple.value
                  rintro pool ⟨hSub, hAccount, hHolds⟩
                  exact ⟨hSub.cons_cons rank,
                    hAccount.row
                      (device_of_validateReceipt (hChecked rfl))
                      hReply,
                    hHolds.mono (paid_cons_sublist rank _ debt)⟩

/- The ranks that answered and the others are all ranks. -/
theorem complete_perm
    {complete pending : List Nat}
    (hNodup : pending.Nodup)
    (hSub : List.Sublist complete pending) :
    List.Perm
      (complete ++
        pending.filter fun rank => !complete.contains rank)
      pending := by
  refine (List.perm_ext_iff_of_nodup ?_ hNodup).mpr ?_
  · refine List.Nodup.append (hNodup.sublist hSub)
      (hNodup.filter _) ?_
    intro rank hComplete hPending
    simp [hComplete] at hPending
  · intro rank
    rw [List.mem_append, List.mem_filter]
    by_cases hComplete : rank ∈ complete
    · simp [hComplete, hSub.subset hComplete]
    · simp [hComplete]

/- Receiving ends with one row or failure for every rank. -/
theorem receiveAll_triple
    (request : Request)
    (deadline polls : Nat)
    {ranks done pending : List Nat}
    {rows : List Line}
    {failures : List RankFailure}
    (hNodup : pending.Nodup)
    (hRanks : List.Perm (done ++ pending) ranks)
    (hAccount : Account request done rows failures) :
    Triple
      (Holds frame
        (owing (fun rank => .reply rank request) pending noDebt))
      (receiveAll env config request deadline polls pending rows
        failures)
      (fun received pool =>
        Account request ranks received.1 received.2 ∧
          Holds frame noDebt pool)
      (fun _ => Framed frame) := by
  induction polls generalizing done pending rows failures with
  | zero =>
      cases pending with
      | nil =>
          refine Triple.value fun _ hHolds =>
            ⟨hAccount.perm (by simpa using hRanks),
              hHolds.mono fun rank => by simp [owing]⟩
      | cons rank pending =>
          exact Triple.stop fun _ hHolds => hHolds.toFramed
  | succ polls ih =>
      cases hPending : pending with
      | nil =>
          subst hPending
          refine Triple.value fun _ hHolds =>
            ⟨hAccount.perm (by simpa using hRanks),
              hHolds.mono fun rank => by simp [owing]⟩
      | cons first others =>
          rw [← hPending]
          have hStep :
              receiveAll env config request deadline (polls + 1)
                  pending rows failures =
                (do
                  let _ ← remaining env deadline
                  let received ←
                    receivePass env config request deadline pending
                  pause env
                  receiveAll env config request deadline polls
                    (pending.filter fun rank =>
                      !received.complete.contains rank)
                    (rows ++ received.rows)
                    (failures ++ received.failures)) := by
            rw [hPending]
            rfl
          rw [hStep]
          apply Triple.seq (remaining_triple env deadline)
          intro _
          apply Triple.seq
            (receivePass_triple env config request deadline hNodup
              fun rank hMem => by simp [owing, hMem])
          intro received
          apply Triple.of_state
          rintro pool ⟨hSub, hLater, hHolds⟩
          have hPause :
              Triple (fun other => other = pool) (pause env)
                (fun _ => Holds frame
                  (owing (fun rank => .reply rank request)
                    (pending.filter fun rank =>
                      !received.complete.contains rank) noDebt))
                (fun _ => Framed frame) :=
            Triple.pre (pause_triple env) fun _ hSame =>
              hSame ▸ hHolds.mono
                (paid_filter _ received.complete pending)
          apply Triple.seq hPause
          intro _
          refine ih (hNodup.filter _) ?_ (hAccount.append hLater)
          rw [List.append_assoc]
          exact ((complete_perm hNodup hSub).append_left done).trans
            hRanks

----------------
-- One Measurement
----------------

/- Every rank answers or fails; rows come in the ranks' order. -/
structure Complete
    (world : Nat)
    (request : Request)
    (batch : Batch) : Prop where
  account :
    Account request (List.range world) batch.rows batch.failures
  ordered :
    batch.rows.Pairwise fun row later =>
      ∃ rank rank', row.device = some rank ∧
        later.device = some rank' ∧ rank < rank'

/- Such an account is a complete batch. -/
theorem complete_byDevice
    {world : Nat}
    {request : Request}
    {rows : List Line}
    {failures : List RankFailure}
    (hAccount : Account request (List.range world) rows failures) :
    Complete world request { rows := byDevice rows, failures } := by
  have hPerm : List.Perm (byDevice rows) rows :=
    List.perm_insertionSort _ rows
  have hReplies : ∀ row ∈ byDevice rows, ∃ rank,
      row.device = some rank ∧ row.origin = .reply rank request :=
    fun row hMem => hAccount.replies row (hPerm.subset hMem)
  refine ⟨⟨?_, hReplies⟩, ?_⟩
  · exact ((hPerm.map Line.device).append_right _).trans hAccount.once
  · have hSorted : (byDevice rows).Pairwise fun row later =>
        deviceKey row ≤ deviceKey later :=
      List.pairwise_insertionSort _ rows
    have hOnce : (rows.map Line.device ++
        failures.map fun failure => some failure.rank).Nodup :=
      hAccount.once.nodup_iff.mpr
        (List.nodup_range.map (Option.some_injective Nat))
    have hDistinct : ((byDevice rows).map Line.device).Nodup :=
      (hPerm.map Line.device).nodup_iff.mpr
        (List.Nodup.of_append_left hOnce)
    rw [List.Nodup, List.pairwise_map] at hDistinct
    refine (hSorted.and hDistinct).imp_of_mem ?_
    rintro row later hRow hLater ⟨hKey, hNe⟩
    rcases hReplies row hRow with ⟨rank, hRank, -⟩
    rcases hReplies later hLater with ⟨rank', hRank', -⟩
    refine ⟨rank, rank', hRank, hRank', ?_⟩
    rw [deviceKey, deviceKey, hRank, hRank'] at hKey
    have hLe : rank + 1 ≤ rank' + 1 := hKey
    have hOther : rank ≠ rank' := by
      rintro rfl
      exact hNe (hRank.trans hRank'.symm)
    omega

/- What a call that returned a batch has to say. -/
def Answered
    (config : PoolConfig)
    (request : Request)
    (batch : Batch) : Prop :=
  Complete config.world request batch ∨
    (config.protocol = .session ∧ Rejected config.world batch)

/- The started ranks are ready, or the call ends. -/
theorem getReady_triple
    (request : Request)
    (deadline : Nat)
    {starting : List Nat}
    (hNodup : starting.Nodup)
    (hRanks : ∀ rank ∈ starting, rank < frame.world) :
    Triple
      (Holds frame
        (owing (fun rank => firstLine config rank request) starting
          noDebt))
      (getReady env config request deadline starting)
      (fun rejected pool =>
        match rejected with
        | none =>
            ∃ debt, (∀ rank, List.Sublist (debt rank)
              (if rank < frame.world then
                beforeAsked config request rank
              else [])) ∧ Holds frame debt pool
        | some batch =>
            config.protocol = .session ∧
              Rejected frame.world batch ∧ Cleared frame pool)
      (fun _ => Framed frame) := by
  rw [getReady]
  cases hProtocol : config.protocol with
  | session =>
      have hLine :
          (fun rank => firstLine config rank request) =
            Origin.ready := by
        funext rank
        rw [firstLine, hProtocol]
      rw [hLine]
      refine Triple.post
        (readiness_triple env request.batch deadline env.polls hNodup
          hRanks) ?_
      intro rejected pool hReady
      cases rejected with
      | none => exact ⟨noDebt, fun _ => List.nil_sublist _, hReady⟩
      | some batch => exact ⟨rfl, hReady⟩
  | oneshot =>
      refine Triple.value fun pool hHolds => ⟨_, ?_, hHolds⟩
      intro rank
      rw [owing, firstLine, beforeAsked, hProtocol]
      by_cases hMem : rank ∈ starting
      · rw [if_pos hMem, if_pos (hRanks rank hMem)]
      · rw [if_neg hMem]
        exact List.nil_sublist _

/- In the mode of single calls the processes are taken away. -/
theorem clearOneshot_triple :
    Triple (Holds frame noDebt) (clearOneshot env config)
      (fun _ => Holds frame noDebt) (fun _ => Framed frame) := by
  rw [clearOneshot]
  cases config.protocol with
  | session => exact Triple.value fun _ hHolds => hHolds
  | oneshot =>
      exact Triple.conseq (clear_triple env)
        (fun _ hHolds => hHolds.toFramed)
        (fun _ _ hCleared => hCleared.holds noDebt)
        fun _ _ hCleared => hCleared.toFramed

/- An answered call owes nothing afterwards. -/
theorem measureInner_triple
    (request : Request)
    (deadline : Nat)
    (hWorld : frame.world = config.world) :
    Triple (Holds frame noDebt)
      (measureInner env config request deadline)
      (fun batch pool =>
        Answered config request batch ∧ Holds frame noDebt pool)
      (fun _ => Framed frame) := by
  apply Triple.seq (remaining_triple env deadline)
  intro _
  apply Triple.seq
    (start_triple env config request deadline
      (List.range config.world))
  intro starting
  apply Triple.of_state
  rintro pool ⟨hSub, hStarted⟩
  have hReady :
      Triple (fun other => other = pool)
        (getReady env config request deadline starting) _ _ :=
    Triple.pre
      (getReady_triple env config request deadline
        (List.nodup_range.sublist hSub) fun rank hMem => by
          rw [hWorld]
          exact List.mem_range.mp (hSub.subset hMem))
      fun _ hSame => hSame ▸ hStarted
  apply Triple.seq hReady
  intro rejected
  cases rejected with
  | some batch =>
      refine Triple.value ?_
      rintro pool ⟨hProtocol, hRejected, hCleared⟩
      rw [hWorld] at hRejected
      exact ⟨.inr ⟨hProtocol, hRejected⟩, hCleared.holds noDebt⟩
  | none =>
      apply Triple.of_state
      rintro pool ⟨debt, hDebt, hHolds⟩
      have hSend :
          Triple (fun other => other = pool)
            (sendAll env config request (List.range config.world))
            _ _ :=
        Triple.pre
          (sendAll_triple env config List.nodup_range
            fun rank hMem => by
              have hRank := hDebt rank
              rwa [if_pos (hWorld ▸ List.mem_range.mp hMem)]
                at hRank)
          fun _ hSame => hSame ▸ hHolds
      apply Triple.seq hSend
      rintro ⟨pending, failed⟩
      apply Triple.of_state
      rintro pool ⟨hSub, hPerm, hAsked⟩
      -- Only a rank of the world can have owed anything.
      have hOwed :
          Holds frame
            (owing (fun rank => .reply rank request) pending
              noDebt) pool := by
        refine hAsked.mono fun rank => ?_
        rw [owing, owing]
        by_cases hMem : rank ∈ pending
        · rw [if_pos hMem, if_pos hMem]
        · rw [if_neg hMem, if_neg hMem, paid]
          split
          · exact List.nil_sublist _
          · rename_i hOut
            have hRank := hDebt rank
            rwa [if_neg fun hLt =>
              hOut (List.mem_range.mpr (hWorld ▸ hLt))] at hRank
      have hFailed :
          Account request (failed.map RankFailure.rank) []
            failed := by
        refine ⟨?_, fun row hMem => (nomatch hMem)⟩
        rw [List.map_map]
        exact List.Perm.refl _
      have hReceive :
          Triple (fun other => other = pool)
            (receiveAll env config request deadline env.polls
              pending [] failed) _ _ :=
        Triple.pre
          (receiveAll_triple env config request deadline env.polls
            (List.nodup_range.sublist hSub)
            (List.perm_append_comm.trans hPerm) hFailed)
          fun _ hSame => hSame ▸ hOwed
      apply Triple.seq hReceive
      rintro ⟨rows, failures⟩
      apply Triple.of_state
      rintro pool ⟨hAccount, hPaid⟩
      have hClear :
          Triple (fun other => other = pool)
            (clearOneshot env config) _ _ :=
        Triple.pre (clearOneshot_triple env config)
          fun _ hSame => hSame ▸ hPaid
      apply Triple.seq hClear
      intro _
      exact Triple.value fun _ hHolds =>
        ⟨.inl (complete_byDevice hAccount), hHolds⟩

/- A call that stops clears the pool. -/
theorem orClear_triple
    {α : Type}
    {program : PoolM α}
    {P : Pool → Prop}
    {Q : α → Pool → Prop}
    (hProgram :
      Triple P program Q (fun _ => Framed frame)) :
    Triple P (orClear env program) Q
      (fun stop pool => stop ≠ .unfinished → Cleared frame pool) := by
  intro pool hP
  have hRun := hProgram pool hP
  rw [orClear]
  cases hResult : program pool with
  | ok a after =>
      rw [hResult] at hRun
      exact hRun
  | error stop after =>
      rw [hResult] at hRun
      cases stop with
      | unfinished => exact fun hNot => absurd rfl hNot
      | error text =>
          have hClear := clear_triple env after hRun
          cases hDone : clear env after with
          | ok done cleared =>
              rw [hDone] at hClear
              simpa only [hDone] using fun _ => hClear
          | error stop cleared =>
              rw [hDone] at hClear
              simpa only [hDone] using fun _ => hClear

----------------
-- Calls
----------------

/- The pool a call reads its limits from. -/
def entered (pool : Pool) : Pool :=
  { (env.events pool.step).foldl Pool.react pool with
    step := pool.step + 1 }

/- The number of a call is taken whether it is refused or not. -/
def numbered (pool : Pool) : Pool :=
  { entered env pool with call := (entered env pool).call + 1 }

theorem measure_eq
    (batch parents timeout : Nat)
    (pool : Pool) :
    measure env config batch parents timeout pool =
      match
        refused env config (entered env pool) batch parents timeout
      with
      | some text => .error (.error text) (numbered env pool)
      | none =>
          orClear env
            (measureInner env config
              ⟨(entered env pool).call, batch, parents⟩
              (min ((entered env pool).now + timeout)
                (entered env pool).deadline))
            (numbered env pool) := by
  change
    (match
      refused env config (entered env pool) batch parents timeout
    with
    | some text => (raise text : PoolM Batch)
    | none => _) (numbered env pool) = _
  cases refused env config (entered env pool) batch parents timeout
    with
  | some text => rfl
  | none => rfl

/- Nothing is owed between two calls. -/
def Idle (pool : Pool) : Prop :=
  Holds ⟨config.world, pool.capacity, pool.call⟩ noDebt pool

theorem entered_holds
    {pool : Pool}
    (hIdle : Idle config pool) :
    Holds ⟨config.world, pool.capacity, pool.call⟩ noDebt
      (entered env pool) :=
  (Holds.reacts hIdle _).same rfl rfl rfl

theorem numbered_holds
    {pool : Pool}
    (hIdle : Idle config pool) :
    Holds ⟨config.world, pool.capacity, pool.call + 1⟩ noDebt
      (numbered env pool) := by
  have hEntered := entered_holds env config hIdle
  exact
    { length := hEntered.length
      capacity := hEntered.capacity
      call := congrArg (· + 1) hEntered.call
      owes := hEntered.owes }

theorem Holds.idle
    {pool : Pool}
    (hHolds : Holds frame noDebt pool)
    (hWorld : frame.world = config.world) :
    Idle config pool :=
  { length := hHolds.length.trans hWorld
    capacity := Nat.le_refl _
    call := rfl
    owes := hHolds.owes }

/- What a call that returned may have done. -/
structure Paired (served : Served) : Prop where
  answered :
    ∀ batch, served.result = .ok batch →
      Answered config
        ⟨served.before.call, served.asked.batch,
          served.asked.parents⟩ batch
  refusal :
    ∀ text,
      refused env config (entered env served.before)
          served.asked.batch served.asked.parents
          served.asked.timeout = some text →
        served.result = .error text ∧
          served.after = numbered env served.before
  cleared :
    ∀ text, served.result = .error text →
      refused env config (entered env served.before)
          served.asked.batch served.asked.parents
          served.asked.timeout = none →
        ∀ rank, served.after.child? rank = none
  capacity : served.after.capacity ≤ served.before.capacity

/- One call from an idle pool; its end is idle again. -/
structure Call (served : Served) : Prop
    extends Paired env config served where
  idle : Idle config served.after
  number : served.after.call = served.before.call + 1

/- A refused call changes no process. -/
theorem call_of_refused
    {asked : Asked}
    {pool : Pool}
    {text : String}
    (hIdle : Idle config pool)
    (hRefused :
      refused env config (entered env pool) asked.batch
        asked.parents asked.timeout = some text) :
    Call env config
      ⟨asked, pool, .error text, numbered env pool⟩ where
  answered := fun batch hResult => (nomatch hResult)
  refusal := by
    intro other hOther
    rw [hRefused] at hOther
    cases hOther
    exact ⟨rfl, rfl⟩
  cleared := by
    intro other _ hNone
    rw [hRefused] at hNone
    cases hNone
  capacity := (entered_holds env config hIdle).capacity
  idle := (numbered_holds env config hIdle).idle config rfl
  number := (numbered_holds env config hIdle).call

/- The call of a measurement that was let in. -/
theorem call_of_measure
    {asked : Asked}
    {pool after : Pool}
    {result : Except String Batch}
    (hIdle : Idle config pool)
    (hEntered :
      refused env config (entered env pool) asked.batch
        asked.parents asked.timeout = none)
    (hRun :
      measure env config asked.batch asked.parents asked.timeout
          pool =
        match result with
        | .ok batch => .ok batch after
        | .error text => .error (.error text) after) :
    Call env config ⟨asked, pool, result, after⟩ := by
  let frame : Frame := ⟨config.world, pool.capacity, pool.call + 1⟩
  have hInner :
      Triple (Holds frame noDebt)
        (measureInner env config
          ⟨(entered env pool).call, asked.batch, asked.parents⟩
          (min ((entered env pool).now + asked.timeout)
            (entered env pool).deadline))
        _ (fun _ => Framed frame) :=
    measureInner_triple env config _ _ rfl
  have hCall := orClear_triple env hInner (numbered env pool)
    (numbered_holds env config hIdle)
  rw [measure_eq, hEntered] at hRun
  dsimp only at hRun
  rw [hRun] at hCall
  have hNumber : (entered env pool).call = pool.call :=
    (entered_holds env config hIdle).call
  rw [hNumber] at hCall
  have hRefusal : ∀ {goal : Prop} text,
      refused env config (entered env pool) asked.batch
        asked.parents asked.timeout = some text → goal := by
    intro goal text hText
    rw [hEntered] at hText
    cases hText
  cases result with
  | ok batch =>
      rcases hCall with ⟨hAnswered, hHolds⟩
      exact
        { answered := fun other hOther =>
            Except.ok.inj hOther ▸ hAnswered
          refusal := fun text hText => hRefusal text hText
          cleared := fun text hText => (nomatch hText)
          capacity := hHolds.capacity
          idle := hHolds.idle config rfl
          number := hHolds.call }
  | error text =>
      have hCleared := hCall (fun hStop => (nomatch hStop))
      exact
        { answered := fun other hOther => (nomatch hOther)
          refusal := fun text hText => hRefusal text hText
          cleared := fun _ _ _ => hCleared.gone
          capacity := hCleared.capacity
          idle := (hCleared.holds noDebt).idle config rfl
          number := hCleared.call }

/- A call that ran is answered, or leaves no process. -/
theorem call_of_run
    {asked : Asked}
    {pool after : Pool}
    {result : Except String Batch}
    (hIdle : Idle config pool)
    (hRun :
      measure env config asked.batch asked.parents asked.timeout
          pool =
        match result with
        | .ok batch => .ok batch after
        | .error text => .error (.error text) after) :
    Call env config ⟨asked, pool, result, after⟩ := by
  cases hRefused :
      refused env config (entered env pool) asked.batch
        asked.parents asked.timeout with
  | none => exact call_of_measure env config hIdle hRefused hRun
  | some text =>
      rw [measure_eq, hRefused] at hRun
      dsimp only at hRun
      cases result with
      | ok batch => cases hRun
      | error other =>
          cases hRun
          exact call_of_refused env config hIdle hRefused

----------------
-- Sequences Of Calls
----------------

/- A sequence of calls, told one call after the other. -/
theorem serve_induction
    {M : List Served → Pool → Prop}
    (hNil : ∀ pool, Idle config pool → M [] pool)
    (hCons : ∀ served others,
      Call env config served → M others served.after →
        M (served :: others) served.before)
    (asked : List Asked)
    {pool : Pool}
    (hIdle : Idle config pool) :
    M (serve env config asked pool) pool := by
  induction asked generalizing pool with
  | nil => exact hNil pool hIdle
  | cons first asked ih =>
      rw [serve]
      cases hRun :
          measure env config first.batch first.parents
            first.timeout pool with
      | ok batch after =>
          have hCall : Call env config
              ⟨first, pool, .ok batch, after⟩ :=
            call_of_run env config hIdle hRun
          exact hCons _ _ hCall (ih hCall.idle)
      | error stop after =>
          cases stop with
          | unfinished => exact hNil pool hIdle
          | error text =>
              have hCall : Call env config
                  ⟨first, pool, .error text, after⟩ :=
                call_of_run env config hIdle hRun
              exact hCons _ _ hCall (ih hCall.idle)

/- A new pool is idle. -/
theorem new_idle
    (capacity deadline now : Nat) :
    Idle config (Pool.new config capacity deadline now) where
  length := List.length_replicate
  capacity := Nat.le_refl _
  call := rfl
  owes := by
    intro rank child hChild
    rw [Pool.child?, Pool.new, List.getElem?_replicate] at hChild
    split at hChild
    · cases hChild
    · cases hChild

/- The calls are numbered in their order. -/
theorem serve_numbers
    (asked : List Asked)
    {pool : Pool}
    (hIdle : Idle config pool) :
    (serve env config asked pool).map
        (fun served => served.before.call) =
      List.range' pool.call (serve env config asked pool).length := by
  refine serve_induction env config
    (M := fun run pool =>
      run.map (fun served => served.before.call) =
        List.range' pool.call run.length)
    ?_ ?_ asked hIdle
  · intro pool _
    rfl
  · intro served others hCall hOthers
    rw [List.map_cons, hOthers, hCall.number, List.length_cons,
      List.range'_succ]

/- The capacity never grows from one call to the next. -/
theorem serve_capacities
    (asked : List Asked)
    {pool : Pool}
    (hIdle : Idle config pool) :
    List.Pairwise (fun a b => b ≤ a)
      (pool.capacity ::
        (serve env config asked pool).map fun served =>
          served.after.capacity) := by
  refine serve_induction env config
    (M := fun run pool =>
      List.Pairwise (fun a b => b ≤ a)
        (pool.capacity ::
          run.map fun served => served.after.capacity))
    ?_ ?_ asked hIdle
  · intro pool _
    exact List.pairwise_singleton _ _
  · intro served others hCall hOthers
    refine List.pairwise_cons.mpr ⟨?_, hOthers⟩
    intro capacity hMem
    rcases List.mem_cons.mp hMem with rfl | hMem
    · exact hCall.capacity
    · exact ((List.pairwise_cons.mp hOthers).1 capacity hMem).trans
        hCall.capacity

end Calls

/- Every call of every sequence pairs its replies: the requests
are told apart by the numbers of their calls. -/
theorem pool_pairs
    (env : Surroundings)
    (config : PoolConfig)
    (capacity deadline now : Nat)
    (asked : List Asked) :
    let pool := Pool.new config capacity deadline now
    let run := serve env config asked pool
    (∀ served ∈ run, Paired env config served) ∧
      run.map (fun served => served.before.call) =
        List.range run.length ∧
      List.Pairwise (fun a b => b ≤ a)
        (capacity :: run.map fun served =>
          served.after.capacity) := by
  have hIdle := new_idle config capacity deadline now
  refine ⟨?_, ?_, serve_capacities env config asked hIdle⟩
  · refine serve_induction env config
      (M := fun run _ => ∀ served ∈ run, Paired env config served)
      ?_ ?_ asked hIdle
    · intro pool _ served hMem
      cases hMem
    · intro served others hCall hOthers other hMem
      rcases List.mem_cons.mp hMem with rfl | hMem
      · exact hCall.toPaired
      · exact hOthers other hMem
  · rw [serve_numbers env config asked hIdle]
    exact (List.range_eq_range' ..).symm

/- One rank gets ready and replies; a request for an empty batch
is refused, and the process stays. -/
def soloConfig : PoolConfig where
  parents := 1
  world := 1
  protocol := .session

/- The line of readiness. -/
def soloReady : Json.Fields :=
  [("ready", .bool true), ("device", .integer 0)]

/- The reply of the child. -/
def soloReply : Json.Fields :=
  [("batch", .integer 1), ("parents", .integer 1),
    ("device", .integer 0), ("correctness_passed", .bool true),
    ("numeric_error", .integer 0),
    ("seconds", .array (List.replicate 5 (.integer 1))),
    ("torch_reserved_peak_bytes", .integer 0)]

/- A child that gets ready and answers. -/
def soloEvents : List Event :=
  [.child 0 (.begin soloReady), .child 0 .deliver, .child 0 .take,
    .child 0 (.answer soloReply), .child 0 .deliver]

/-
  No cleanup fails, and the clock runs to its hundredth
  instant.
-/
def soloSurroundings : Surroundings where
  events := fun _ => soloEvents
  failing := fun _ => none
  logText := fun _ _ => []
  lastInstant := 100
  polls := 2

/- A request that is answered and one that is refused. -/
def soloRun : List Served :=
  serve soloSurroundings soloConfig [⟨1, 1, 10⟩, ⟨0, 1, 10⟩]
    (Pool.new soloConfig 1 100 0)

/- Did an error leave a process? -/
def Served.leaves (served : Served) : Bool :=
  !served.result.isOk && (served.after.child? 0).isSome

theorem exists_of_leaves
    {run : List Served}
    (hLeaves : run.any Served.leaves = true) :
    ∃ served ∈ run, ∃ text, served.result = .error text ∧
      served.after.child? 0 ≠ none := by
  rcases List.any_eq_true.mp hLeaves with ⟨served, hMem, hLeaves⟩
  rw [Served.leaves, Bool.and_eq_true] at hLeaves
  refine ⟨served, hMem, ?_⟩
  cases hResult : served.result with
  | ok batch =>
      rw [hResult] at hLeaves
      cases hLeaves.1
  | error text =>
      refine ⟨text, rfl, fun hNone => ?_⟩
      rw [hNone] at hLeaves
      cases hLeaves.2

theorem soloRun_leaves : soloRun.any Served.leaves = true := by
  decide +kernel

theorem refusal_leaves_process :
    ¬ ∀ (env : Surroundings) (config : PoolConfig)
        (capacity deadline now : Nat) (asked : List Asked),
      ∀ served ∈ serve env config asked
          (Pool.new config capacity deadline now),
        ∀ text, served.result = .error text →
          ∀ rank, served.after.child? rank = none := by
  intro hAll
  rcases exists_of_leaves soloRun_leaves with
    ⟨served, hMem, text, hError, hStays⟩
  exact hStays (hAll soloSurroundings soloConfig 1 100 0
    [⟨1, 1, 10⟩, ⟨0, 1, 10⟩] served hMem text hError 0)

end InferencePool

end Calibration

end BeamSearch
