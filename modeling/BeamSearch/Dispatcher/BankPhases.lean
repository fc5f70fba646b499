import BeamSearch.Stream3.Append
import BeamSearch.Dispatcher.Frames

/-
  The life of the banks, as their events tell it.

  A logical shard is idle, or one of its banks is listed for a
  sort or being sorted. Rows are appended to a bank that is
  neither. The rows appended since a bank's last pass are those
  still to be sorted.

  Main declarations:
    * `ShardPhase`, `bankReplay`
    * `unsortedRows`
-/

namespace BeamSearch

open Stream3

namespace Dispatcher

variable {events : List BankEvent}

----------------
-- Phases Of A Logical Shard
----------------

/-
  A shard is at rest, or one of its banks is listed, or being
  sorted.
-/
inductive ShardPhase where
  | idle
  | listed (physical : Nat)
  | sorting (physical : Nat)
deriving DecidableEq, Repr

/- Is this bank listed or being sorted? -/
def ShardPhase.holds (phase : ShardPhase) (physical : Nat) : Prop :=
  phase = .listed physical ∨ phase = .sorting physical

instance (phase : ShardPhase) (physical : Nat) :
    Decidable (phase.holds physical) :=
  inferInstanceAs (Decidable (_ ∨ _))

/-
  What an event does to the phase of its shard, and where it
  is out of place: a bank that is listed or sorted takes no
  rows.
-/
def bankStep
    (phases : Nat → ShardPhase)
    (event : BankEvent) : Option (Nat → ShardPhase) :=
  match event with
  | .appended physical _ =>
      if (phases (logicalShard physical)).holds physical then none
      else some phases
  | .listed physical =>
      if phases (logicalShard physical) = .idle then
        some
          (Function.update phases (logicalShard physical)
            (.listed physical))
      else none
  | .launched physical =>
      if phases (logicalShard physical) = .listed physical then
        some
          (Function.update phases (logicalShard physical)
            (.sorting physical))
      else none
  | .pressureLaunched physical =>
      if phases (logicalShard physical) = .idle then
        some
          (Function.update phases (logicalShard physical)
            (.sorting physical))
      else none
  | .passed physical =>
      if phases (logicalShard physical) = .sorting physical then
        some
          (Function.update phases (logicalShard physical) .idle)
      else none

/- The phases a history of events leaves, if it is possible. -/
def bankReplay
    (events : List BankEvent) : Option (Nat → ShardPhase) :=
  events.foldlM bankStep fun _ => .idle

variable {phases : Nat → ShardPhase}

/- A history is replayed part by part. -/
theorem bankReplay_append
    {events' : List BankEvent}
    (hReplay : bankReplay events = some phases) :
    bankReplay (events ++ events') =
      events'.foldlM bankStep phases := by
  rw [bankReplay] at hReplay ⊢
  rw [List.foldlM_append, hReplay]
  rfl

/- One event more. -/
theorem bankReplay_snoc
    {event : BankEvent}
    {after : Nat → ShardPhase}
    (hReplay : bankReplay events = some phases)
    (hStep : bankStep phases event = some after) :
    bankReplay (events ++ [event]) = some after := by
  rw [bankReplay_append hReplay, List.foldlM_cons, hStep]
  rfl

/- One event less. -/
theorem bankReplay_of_snoc
    {event : BankEvent}
    {after : Nat → ShardPhase}
    (hReplay : bankReplay (events ++ [event]) = some after) :
    ∃ phases,
      bankReplay events = some phases ∧
        bankStep phases event = some after := by
  rw [bankReplay, List.foldlM_append] at hReplay
  rcases Option.bind_eq_some_iff.mp hReplay with
    ⟨phases, hBefore, hRest⟩
  rw [List.foldlM_cons] at hRest
  rcases Option.bind_eq_some_iff.mp hRest with ⟨_, hStep, hDone⟩
  cases hDone
  exact ⟨phases, hBefore, hStep⟩

/- A phase is about a bank of its own shard. -/
theorem logicalShard_of_holds
    {shard physical : Nat}
    (hReplay : bankReplay events = some phases)
    (hHolds : (phases shard).holds physical) :
    logicalShard physical = shard := by
  induction events using List.reverseRecOn generalizing phases with
  | nil =>
      cases hReplay
      rcases hHolds with hListed | hSorting
      · cases hListed
      · cases hSorting
  | append_singleton events event ih =>
      rcases bankReplay_of_snoc hReplay with
        ⟨before, hBefore, hStep⟩
      have hUpdate :
          ∀ other next,
            (∀ bank, next.holds bank → bank = other) →
              phases =
                  Function.update before (logicalShard other)
                    next →
                logicalShard physical = shard := by
        rintro other next hNext rfl
        by_cases hHere : shard = logicalShard other
        · rw [hHere, Function.update_self] at hHolds
          rw [hNext physical hHolds, hHere]
        · rw [Function.update_of_ne hHere] at hHolds
          exact ih hBefore hHolds
      rw [bankStep.eq_def] at hStep
      cases event with
      | appended other count =>
          dsimp only at hStep
          split at hStep
          · cases hStep
          · cases hStep
            exact ih hBefore hHolds
      | listed other =>
          dsimp only at hStep
          split at hStep
          · refine
              hUpdate other (.listed other) ?_
                (Option.some.inj hStep).symm
            rintro bank (hBank | hBank)
            · exact (ShardPhase.listed.inj hBank).symm
            · cases hBank
          · cases hStep
      | launched other =>
          dsimp only at hStep
          split at hStep
          · refine
              hUpdate other (.sorting other) ?_
                (Option.some.inj hStep).symm
            rintro bank (hBank | hBank)
            · cases hBank
            · exact (ShardPhase.sorting.inj hBank).symm
          · cases hStep
      | pressureLaunched other =>
          dsimp only at hStep
          split at hStep
          · refine
              hUpdate other (.sorting other) ?_
                (Option.some.inj hStep).symm
            rintro bank (hBank | hBank)
            · cases hBank
            · exact (ShardPhase.sorting.inj hBank).symm
          · cases hStep
      | passed other =>
          dsimp only at hStep
          split at hStep
          · refine
              hUpdate other .idle ?_ (Option.some.inj hStep).symm
            rintro bank (hBank | hBank)
            · cases hBank
            · cases hBank
          · cases hStep

/- A step of one bank is not seen by the others. -/
theorem update_phase_iff
    {physical other : Nat}
    {next phase : ShardPhase}
    (hBefore : phases (logicalShard other) ≠ phase)
    (hAfter : next ≠ phase) :
    Function.update phases (logicalShard other) next
          (logicalShard physical) = phase ↔
      phases (logicalShard physical) = phase := by
  by_cases hShard : logicalShard physical = logicalShard other
  · rw [hShard, Function.update_self]
    exact iff_of_false hAfter hBefore
  · rw [Function.update_of_ne hShard]

----------------
-- Rows To Sort
----------------

/- The rows of a bank that no pass has read. -/
def unsortedStep
    (physical rows : Nat) : BankEvent → Nat
  | .appended other count =>
      if other = physical then rows + count else rows
  | .passed other => if other = physical then 0 else rows
  | _ => rows

/- The rows appended to a bank since its last pass. -/
def unsortedRows
    (events : List BankEvent)
    (physical : Nat) : Nat :=
  events.foldl (unsortedStep physical) 0

/- One event more. -/
theorem unsortedRows_snoc
    (events : List BankEvent)
    (event : BankEvent)
    (physical : Nat) :
    unsortedRows (events ++ [event]) physical =
      unsortedStep physical (unsortedRows events physical)
        event := by
  rw [unsortedRows, List.foldl_append, unsortedRows]
  rfl

/- Events of other banks do not count. -/
theorem unsortedRows_append_of_same
    (events : List BankEvent)
    {events' : List BankEvent}
    {physical : Nat}
    (hSame :
      ∀ event ∈ events', ∀ rows,
        unsortedStep physical rows event = rows) :
    unsortedRows (events ++ events') physical =
      unsortedRows events physical := by
  rw [unsortedRows, List.foldl_append, ← unsortedRows]
  induction events' with
  | nil => rfl
  | cons event events' ih =>
      rw [List.foldl_cons, hSame event List.mem_cons_self]
      exact ih fun other hMem =>
        hSame other (List.mem_cons_of_mem _ hMem)

/- An append adds the rows of its groups to their banks. -/
theorem unsortedRows_appendEvents
    (geometry : ShardGeometry)
    (banks : Banks)
    (events : List BankEvent)
    (groups : List (Nat × Nat))
    (physical : Nat) :
    unsortedRows
        (events ++ appendEvents geometry banks groups) physical =
      unsortedRows events physical +
        appendedRows geometry banks groups physical := by
  induction groups using List.reverseRecOn with
  | nil =>
      rw [appendEvents, List.map_nil, List.append_nil]
      rfl
  | append_singleton groups last ih =>
      rw [appendEvents, List.map_append, ← appendEvents,
        ← List.append_assoc, List.map_singleton,
        unsortedRows_snoc, ih, appendedRows_append, unsortedStep]
      split <;> omega

/- A bank that takes rows is not processing. -/
theorem bankReplay_appendEvents
    {geometry : ShardGeometry}
    {banks : Banks}
    {groups : List (Nat × Nat)}
    (hReplay : bankReplay events = some phases)
    (hFree :
      ∀ group ∈ groups,
        ¬ (phases
            (logicalShard (appendBank geometry banks group))).holds
          (appendBank geometry banks group)) :
    bankReplay (events ++ appendEvents geometry banks groups) =
      some phases := by
  induction groups using List.reverseRecOn with
  | nil =>
      rw [appendEvents, List.map_nil, List.append_nil]
      exact hReplay
  | append_singleton groups last ih =>
      have hBefore :=
        ih fun group hMem =>
          hFree group (List.mem_append_left _ hMem)
      rw [appendEvents, List.map_append, ← appendEvents,
        ← List.append_assoc, List.map_singleton]
      apply bankReplay_snoc hBefore
      rw [bankStep, if_neg (hFree last (by simp))]

/- A list of banks of different idle shards. -/
theorem bankReplay_listed
    {banks : List Nat}
    (hReplay : bankReplay events = some phases)
    (hNodup : (banks.map logicalShard).Nodup)
    (hIdle :
      ∀ physical ∈ banks,
        phases (logicalShard physical) = .idle) :
    ∃ after,
      bankReplay (events ++ banks.map .listed) = some after ∧
        (∀ physical ∈ banks,
          after (logicalShard physical) = .listed physical) ∧
        ∀ shard, shard ∉ banks.map logicalShard →
          after shard = phases shard := by
  induction banks using List.reverseRecOn with
  | nil =>
      refine ⟨phases, ?_, nofun, fun _ _ => rfl⟩
      rw [List.map_nil, List.append_nil]
      exact hReplay
  | append_singleton banks last ih =>
      rw [List.map_append, List.map_singleton] at hNodup
      rw [List.nodup_append] at hNodup
      rcases hNodup with ⟨hBanks, -, hNew⟩
      have hOther :
          ∀ physical ∈ banks,
            logicalShard physical ≠ logicalShard last := by
        intro physical hMem
        exact
          hNew _ (List.mem_map_of_mem hMem) _
            (List.mem_singleton_self _)
      rcases ih hBanks fun physical hMem =>
          hIdle physical (List.mem_append_left _ hMem) with
        ⟨before, hBefore, hListed, hKept⟩
      have hLast : before (logicalShard last) = .idle := by
        rw [hKept]
        · exact hIdle last (by simp)
        · intro hMem
          rcases List.mem_map.mp hMem with
            ⟨physical, hBank, hShard⟩
          exact hOther physical hBank hShard
      refine
        ⟨Function.update before (logicalShard last)
          (.listed last), ?_, ?_, ?_⟩
      · rw [List.map_append, List.map_singleton,
          ← List.append_assoc]
        apply bankReplay_snoc hBefore
        rw [bankStep, if_pos hLast]
      · intro physical hMem
        rcases List.mem_append.mp hMem with hOld | hHere
        · rw [Function.update_of_ne (hOther physical hOld)]
          exact hListed physical hOld
        · rw [List.mem_singleton.mp hHere, Function.update_self]
      · intro shard hNot
        rw [List.map_append, List.mem_append, not_or,
          List.map_singleton, List.mem_singleton] at hNot
        rw [Function.update_of_ne hNot.2]
        exact hKept shard hNot.1

end Dispatcher

end BeamSearch
